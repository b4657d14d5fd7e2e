import Mathlib.Data.List.Infix
import PromptSheet.Proofs.Segments
import PromptSheet.Text.Slice

/-!
# Cutting texts by their bytes

A cut succeeds where one character ends and the next begins. Searching counts the bytes in
front of what it finds, so that a cut at the place found, or just after it, always succeeds.
-/

namespace PromptSheet

section Lists

variable {α : Type} {first second third : List α} {start stop : Nat}

theorem take?_append (h : first.length = stop) : take? stop (first ++ second) = some first := by
  rw [take?, if_pos (by simp [← h]), ← h, List.take_left]

theorem drop?_append (h : first.length = start) : drop? start (first ++ second) = some second := by
  rw [drop?, if_pos (by simp [← h]), ← h, List.drop_left]

theorem drop?_append_cons (item : α) (h : first.length = start) :
    drop? (start + 1) (first ++ item :: second) = some second := by
  rw [List.append_cons]
  exact drop?_append (by simp [h])

theorem slice?_append (hstart : first.length = start) (hstop : start + second.length = stop) :
    slice? start stop (first ++ (second ++ third)) = some second := by
  have htake : take? stop (first ++ second ++ third) = some (first ++ second) :=
    take?_append (by rw [List.length_append, hstart, hstop])
  rw [slice?, if_pos (by omega), ← List.append_assoc, htake, Option.map_some, ← hstart,
    List.drop_left]

end Lists

namespace Text

variable {s front rest pattern : List Char} {p : Char → Bool}

@[simp] theorem length_bytes (s : List Char) : (bytes s).length = byteSize s := rfl

@[simp] theorem byteSize_nil : byteSize [] = 0 := rfl

@[simp] theorem byteSize_cons (c : Char) (s : List Char) :
    byteSize (c :: s) = c.utf8Size + byteSize s := by
  rw [byteSize, bytes, List.flatMap_cons, List.length_append, String.length_utf8EncodeChar]
  rfl

theorem bytes_append (first second : List Char) :
    bytes (first ++ second) = bytes first ++ bytes second :=
  List.flatMap_append

@[simp] theorem byteSize_append (first second : List Char) :
    byteSize (first ++ second) = byteSize first + byteSize second := by
  rw [byteSize, bytes_append, List.length_append, byteSize, byteSize]

theorem byteSize_pos (h : s ≠ []) : 0 < byteSize s := by
  obtain ⟨c, rest, rfl⟩ := List.exists_cons_of_ne_nil h
  rw [byteSize_cons]
  exact Nat.add_pos_left c.utf8Size_pos _

theorem takeBytes?_append (front rest : List Char) :
    takeBytes? (byteSize front) (front ++ rest) = some front := by
  induction front with
  | nil => rw [byteSize_nil, takeBytes?]
  | cons c front ih =>
      obtain ⟨size, hsize⟩ := Nat.exists_eq_add_one_of_ne_zero
        (Nat.ne_of_gt (byteSize_pos (List.cons_ne_nil c front)))
      rw [hsize, List.cons_append, takeBytes?, ← hsize, byteSize_cons,
        if_pos (Nat.le_add_right _ _), Nat.add_sub_cancel_left, ih]
      rfl

theorem dropBytes?_append (front rest : List Char) :
    dropBytes? (byteSize front) (front ++ rest) = some rest := by
  induction front with
  | nil => rw [byteSize_nil, List.nil_append, dropBytes?]
  | cons c front ih =>
      obtain ⟨size, hsize⟩ := Nat.exists_eq_add_one_of_ne_zero
        (Nat.ne_of_gt (byteSize_pos (List.cons_ne_nil c front)))
      rw [hsize, List.cons_append, dropBytes?, ← hsize, byteSize_cons,
        if_pos (Nat.le_add_right _ _), Nat.add_sub_cancel_left, ih]

theorem sliceBytes?_append (first second third : List Char) :
    sliceBytes? (byteSize first) (byteSize first + byteSize second) (first ++ (second ++ third)) =
      some second := by
  rw [sliceBytes?, if_pos (Nat.le_add_right _ _), dropBytes?_append, Option.bind_some,
    Nat.add_sub_cancel_left, takeBytes?_append]

theorem find?_eq_none (h : ¬pattern <:+: s) : find? pattern s = none := by
  induction s with
  | nil =>
      have hne : pattern ≠ [] := by
        rintro rfl
        exact h List.nil_infix
      rw [find?, if_neg (by simpa using hne)]
  | cons c s ih =>
      rw [List.infix_cons_iff, not_or] at h
      rw [find?, if_neg (by simpa using h.1), ih h.2, Option.map_none]

theorem find?_append (hne : pattern ≠ []) (rest : List Char)
    (h : ¬pattern <:+: front ++ pattern.dropLast) :
    find? pattern (front ++ (pattern ++ rest)) = some (byteSize front) := by
  induction front with
  | nil =>
      obtain ⟨c, pattern, rfl⟩ := List.exists_cons_of_ne_nil hne
      rw [List.nil_append, List.cons_append, find?, if_pos (by simp)]
      rfl
  | cons c front ih =>
      rw [List.cons_append, List.infix_cons_iff, not_or] at h
      have hstart : ¬pattern <+: c :: (front ++ (pattern ++ rest)) := by
        intro hwhole
        refine h.1 (List.prefix_of_prefix_length_le hwhole ?_ ?_)
        · exact List.cons_prefix_cons.2
            ⟨rfl, Template.append_dropLast_prefix_append front rest⟩
        · have := List.length_pos_of_ne_nil hne
          simp only [List.length_cons, List.length_append, List.length_dropLast]
          omega
      rw [List.cons_append, find?, if_neg (by simpa using hstart), ih h.2, Option.map_some,
        byteSize_cons, Nat.add_comm]

theorem findChar?_eq_none (h : ∀ c ∈ s, p c = false) : findChar? p s = none := by
  induction s with
  | nil => rfl
  | cons c s ih =>
      obtain ⟨hc, hs⟩ := List.forall_mem_cons.1 h
      rw [findChar?, hc, if_neg Bool.false_ne_true, ih hs, Option.map_none]

theorem findChar?_append {c : Char} (rest : List Char) (hfront : ∀ d ∈ front, p d = false)
    (hc : p c = true) : findChar? p (front ++ c :: rest) = some (byteSize front) := by
  induction front with
  | nil => rw [List.nil_append, findChar?, if_pos hc, byteSize_nil]
  | cons d front ih =>
      obtain ⟨hd, hfront⟩ := List.forall_mem_cons.1 hfront
      rw [List.cons_append, findChar?, hd, if_neg Bool.false_ne_true, ih hfront, Option.map_some,
        byteSize_cons, Nat.add_comm]

theorem cutAtBlank?_eq (s : List Char) : cutAtBlank? s = some (cutAtBlank s) := by
  rcases hcut : cutAtBlank s with ⟨front, rest⟩
  have hfront : s.takeWhile (fun c => !isBlank c) = front := congrArg Prod.fst hcut
  have hrest : s.dropWhile (fun c => !isBlank c) = rest := congrArg Prod.snd hcut
  have hword : ∀ c ∈ front, isBlank c = false := by
    intro c hc
    rw [← hfront] at hc
    simpa using List.mem_takeWhile_imp hc
  have hs : front ++ rest = s := by
    have happend := cutAtBlank_append s
    rwa [hcut] at happend
  subst hs
  cases rest with
  | nil =>
      rw [List.append_nil, cutAtBlank?, findChar?_eq_none hword]
      rfl
  | cons c rest =>
      have hblank : isBlank c = true := by
        have hhead := List.head?_dropWhile_not (fun c => !isBlank c) (front ++ c :: rest)
        rw [hrest] at hhead
        simpa using hhead
      rw [cutAtBlank?, findChar?_append rest hword hblank]
      simp only [takeBytes?_append, dropBytes?_append]
      rfl

theorem ofNat_eq_newline_iff {n : Nat} (h : n < 256) : UInt8.ofNat n = 10 ↔ n = 10 := by
  rw [← UInt8.toNat_inj, UInt8.toNat_ofNat', Nat.mod_eq_of_lt h]
  rfl

/-- The bytes of a character beyond ASCII are all beyond it themselves. -/
theorem newline_not_mem_utf8EncodeChar {c : Char} (h : 0x7f < c.val.toNat) :
    10 ∉ String.utf8EncodeChar c := by
  have hbyte : ∀ low high : Nat,
      10 < high → low + high < 256 → 10 ≠ UInt8.ofNat (low + high) := by
    intro low high hhigh hlow heq
    have := (ofNat_eq_newline_iff hlow).1 heq.symm
    omega
  suffices hall : ∀ byte ∈ String.utf8EncodeChar c, 10 ≠ byte from fun hmem => hall 10 hmem rfl
  rw [String.utf8EncodeChar, if_neg (Nat.not_le.2 h)]
  split
  · simp only [List.forall_mem_cons]
    exact ⟨hbyte _ _ (by omega) (by omega), hbyte _ _ (by omega) (by omega), nofun⟩
  · split
    · simp only [List.forall_mem_cons]
      exact ⟨hbyte _ _ (by omega) (by omega), hbyte _ _ (by omega) (by omega),
        hbyte _ _ (by omega) (by omega), nofun⟩
    · simp only [List.forall_mem_cons]
      exact ⟨hbyte _ _ (by omega) (by omega), hbyte _ _ (by omega) (by omega),
        hbyte _ _ (by omega) (by omega), hbyte _ _ (by omega) (by omega), nofun⟩

theorem count_utf8EncodeChar (c : Char) :
    (String.utf8EncodeChar c).count 10 = if c = '\n' then 1 else 0 := by
  by_cases hascii : c.val.toNat ≤ 0x7f
  · have hnewline : UInt8.ofNat c.val.toNat = 10 ↔ c = '\n' := by
      rw [ofNat_eq_newline_iff (by omega), ← Char.val_inj, ← UInt32.toNat_inj]
      rfl
    rw [String.utf8EncodeChar, if_pos hascii, List.count_singleton]
    simp only [beq_iff_eq, hnewline]
  · have hne : c ≠ '\n' := by
      rintro rfl
      exact hascii (by decide)
    rw [if_neg hne]
    exact List.count_eq_zero.2 (newline_not_mem_utf8EncodeChar (Nat.not_le.1 hascii))

theorem count_bytes (s : List Char) : (bytes s).count 10 = countNewlines s := by
  induction s with
  | nil => rfl
  | cons c s ih =>
      rw [bytes, List.flatMap_cons, List.count_append, count_utf8EncodeChar]
      rw [bytes] at ih
      rw [ih, countNewlines, countNewlines, List.count_cons, Nat.add_comm]
      simp

end Text

end PromptSheet
