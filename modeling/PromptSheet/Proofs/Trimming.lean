import Mathlib.Data.List.TakeWhile
import PromptSheet.Text.Blank

/-!
# Texts without blanks around them

A trimmed text begins and ends with a character that is not blank. Trimming leaves such a text as it
is, takes blanks in front of it away, and makes one of every text.
-/

namespace PromptSheet.Text

def IsTrimmed (s : List Char) : Prop :=
  (∀ c ∈ s.head?, isBlank c = false) ∧ ∀ c ∈ s.getLast?, isBlank c = false

instance (s : List Char) : Decidable (IsTrimmed s) :=
  @instDecidableAnd _ _ (Option.decidableForallMem s.head?) (Option.decidableForallMem s.getLast?)

def IsSolid (s : List Char) : Prop :=
  ∀ c ∈ s, isBlank c = false

instance (s : List Char) : Decidable (IsSolid s) :=
  List.decidableBAll _ s

theorem dropWhile_isBlank_of_head {s : List Char} (h : ∀ c ∈ s.head?, isBlank c = false) :
    s.dropWhile isBlank = s := by
  cases s with
  | nil => rfl
  | cons c rest => rw [List.dropWhile_cons_of_neg (by simpa using h)]

theorem trimEnd_of_last {s : List Char} (h : ∀ c ∈ s.getLast?, isBlank c = false) :
    trimEnd s = s := by
  rw [trimEnd, dropWhile_isBlank_of_head (by rwa [List.head?_reverse]), List.reverse_reverse]

theorem IsTrimmed.trim_eq {s : List Char} (h : IsTrimmed s) : trim s = s := by
  rw [trim, trimStart, dropWhile_isBlank_of_head h.1, trimEnd_of_last h.2]

theorem isBlank_space : isBlank ' ' = true := by
  decide

theorem trimStart_space_cons (s : List Char) : trimStart (' ' :: s) = trimStart s :=
  List.dropWhile_cons_of_pos isBlank_space

theorem trim_space_cons (s : List Char) : trim (' ' :: s) = trim s := by
  rw [trim, trim, trimStart_space_cons]

theorem IsSolid.isTrimmed {s : List Char} (h : IsSolid s) : IsTrimmed s :=
  ⟨fun c hc => h c (List.mem_of_mem_head? hc), fun c hc => h c (List.mem_of_getLast? hc)⟩

theorem isTrimmed_append {first second : List Char} (hhead : ∀ c ∈ first.head?, isBlank c = false)
    (hlast : ∀ c ∈ second.getLast?, isBlank c = false) (hfirst : first ≠ []) (hsecond : second ≠ []) :
    IsTrimmed (first ++ second) := by
  refine ⟨?_, ?_⟩
  · obtain ⟨c, rest, rfl⟩ := List.exists_cons_of_ne_nil hfirst
    exact hhead
  · rw [List.getLast?_append, Option.or_of_isSome (by simpa using hsecond)]
    exact hlast

theorem head?_trimStart (s : List Char) : ∀ c ∈ (trimStart s).head?, isBlank c = false := by
  intro c hc
  have h := List.head?_dropWhile_not isBlank s
  rw [show s.dropWhile isBlank = trimStart s from rfl, Option.mem_def.1 hc] at h
  simpa using h

theorem getLast?_trimEnd (s : List Char) : ∀ c ∈ (trimEnd s).getLast?, isBlank c = false := by
  intro c hc
  rw [trimEnd, List.getLast?_reverse] at hc
  have h := List.head?_dropWhile_not isBlank s.reverse
  rw [Option.mem_def.1 hc] at h
  simpa using h

theorem exists_trimEnd_append (s : List Char) : ∃ blanks, trimEnd s ++ blanks = s := by
  obtain ⟨blanks, hblanks⟩ := List.dropWhile_suffix (l := s.reverse) isBlank
  refine ⟨blanks.reverse, ?_⟩
  rw [trimEnd, ← List.reverse_append, hblanks, List.reverse_reverse]

theorem isTrimmed_trim (s : List Char) : IsTrimmed (trim s) := by
  refine ⟨fun c hc => ?_, getLast?_trimEnd _⟩
  obtain ⟨rest, hrest⟩ := exists_trimEnd_append (trimStart s)
  refine head?_trimStart s c ?_
  rw [trim] at hc
  rw [← hrest, List.head?_append]
  simp [Option.mem_def.1 hc]

theorem trim_eq_nil_iff {s : List Char} : trim s = [] ↔ ∀ c ∈ s, isBlank c = true := by
  rw [trim, trimEnd, List.reverse_eq_nil_iff, List.dropWhile_eq_nil_iff]
  simp only [List.mem_reverse]
  constructor
  · intro h c hc
    rw [← List.takeWhile_append_dropWhile (p := isBlank) (l := s), List.mem_append] at hc
    rcases hc with hfront | hrest
    · exact (List.mem_takeWhile_imp hfront)
    · exact h c hrest
  · exact fun h c hc => h c ((List.dropWhile_suffix _).subset hc)

theorem isInfix_trim (s : List Char) : trim s <:+: s := by
  obtain ⟨blanks, hblanks⟩ := exists_trimEnd_append (trimStart s)
  have hfront : trim s <+: trimStart s := ⟨blanks, hblanks⟩
  exact hfront.isInfix.trans (List.dropWhile_suffix isBlank).isInfix

theorem eq_nil_of_isBlank {s : List Char} (hall : ∀ c ∈ s, isBlank c = true)
    (hlast : ∀ c ∈ s.getLast?, isBlank c = false) : s = [] := by
  cases h : s.getLast? with
  | none => exact List.getLast?_eq_none_iff.1 h
  | some c =>
      have hblank := hall c (List.mem_of_getLast? h)
      rw [hlast c h] at hblank
      cases hblank

theorem getLast?_tail {c : Char} {s : List Char}
    (h : ∀ d ∈ (c :: s).getLast?, isBlank d = false) : ∀ d ∈ s.getLast?, isBlank d = false := by
  intro d hd
  refine h d ?_
  rw [List.getLast?_cons]
  simp [Option.mem_def.1 hd]

theorem trimStart_append {second : List Char} (h : ∀ c ∈ second.head?, isBlank c = false)
    (first : List Char) : trimStart (first ++ second) = trimStart first ++ second := by
  rw [trimStart, List.dropWhile_append, dropWhile_isBlank_of_head h]
  split
  · next hblank => rw [trimStart, List.isEmpty_iff.1 hblank, List.nil_append]
  · rfl

theorem getLast?_trimStart {s : List Char} {c : Char} (h : c ∈ (trimStart s).getLast?) :
    c ∈ s.getLast? := by
  obtain ⟨front, hfront⟩ : trimStart s <:+ s := List.dropWhile_suffix _
  rw [← hfront, List.getLast?_append]
  simp [Option.mem_def.1 h]

/-- The blanks in front of a text whose end is not blank. -/
theorem exists_blanks_append {s : List Char} (h : ∀ c ∈ s.getLast?, isBlank c = false) :
    ∃ blanks, (∀ c ∈ blanks, isBlank c = true) ∧ s = blanks ++ trim s := by
  refine ⟨s.takeWhile isBlank, fun c hc => List.mem_takeWhile_imp hc, ?_⟩
  have hend : trim s = trimStart s :=
    trimEnd_of_last fun c hc => h c (getLast?_trimStart hc)
  rw [hend]
  exact List.takeWhile_append_dropWhile.symm

theorem trim_blanks_append {blanks s : List Char} (hblanks : ∀ c ∈ blanks, isBlank c = true)
    (hs : IsTrimmed s) : trim (blanks ++ s) = s := by
  rw [trim, trimStart, List.dropWhile_append_of_pos hblanks, dropWhile_isBlank_of_head hs.1,
    trimEnd_of_last hs.2]

theorem trim_concat_blank {c : Char} (hc : isBlank c = true) (s : List Char) :
    trim (s ++ [c]) = trim s := by
  by_cases hall : ∀ d ∈ s, isBlank d = true
  · rw [trim_eq_nil_iff.2 hall, trim_eq_nil_iff]
    simpa [hc, or_imp, forall_and] using hall
  · have hstart : trimStart (s ++ [c]) = trimStart s ++ [c] := by
      rw [trimStart, List.dropWhile_append, if_neg]
      · rfl
      · simpa [List.dropWhile_eq_nil_iff] using hall
    rw [trim, hstart, trimEnd, List.reverse_append]
    simp [hc, trim, trimEnd]

section Words

variable {word : List Char} (h : IsSolid word)

include h

theorem cutAtBlank_of_isSolid : cutAtBlank word = (word, []) := by
  have hword : ∀ c ∈ word, (!isBlank c) = true := by simpa [IsSolid] using h
  rw [cutAtBlank, List.takeWhile_eq_self_iff.2 hword, List.dropWhile_eq_nil_iff.2 hword]

theorem cutAtBlank_append_space (rest : List Char) :
    cutAtBlank (word ++ ' ' :: rest) = (word, ' ' :: rest) := by
  have hword : ∀ c ∈ word, (!isBlank c) = true := by simpa [IsSolid] using h
  rw [cutAtBlank, List.takeWhile_append_of_pos hword, List.dropWhile_append_of_pos hword]
  simp [isBlank_space]

theorem lastWord_append {front : List Char} (hfront : ∀ c ∈ front.getLast?, isBlank c = true) :
    lastWord (front ++ word) = word := by
  have hword : ∀ c ∈ word.reverse, (!isBlank c) = true := by simpa [IsSolid] using h
  have hstop : front.reverse.takeWhile (fun c => !isBlank c) = [] := by
    rcases List.eq_nil_or_concat front with rfl | ⟨before, c, rfl⟩
    · rfl
    · have hc : isBlank c = true := hfront c (by rw [List.concat_eq_append, List.getLast?_concat]; rfl)
      simp [hc]
  rw [lastWord, List.reverse_append, List.takeWhile_append_of_pos hword, hstop, List.append_nil,
    List.reverse_reverse]

end Words

end PromptSheet.Text
