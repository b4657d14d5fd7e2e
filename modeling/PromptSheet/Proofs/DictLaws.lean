import PromptSheet.Dict

/-!
# What dictionaries hold after many entries

The entries of a dictionary after others were put in or merged in, and what a key then leads to.
-/

namespace PromptSheet.Dict

variable {α : Type} {dict : Dict α} {key : String} {value : α}

theorem lookup_cons_eq {κ ι : Type} [BEq κ] [LawfulBEq κ] [DecidableEq κ] (name wanted : κ)
    (content : ι) (pairs : List (κ × ι)) : ((name, content) :: pairs).lookup wanted =
      if wanted = name then some content else pairs.lookup wanted := by
  rw [List.lookup_cons]
  by_cases hwanted : wanted = name
  · rw [if_pos hwanted, beq_iff_eq.2 hwanted]
  · rw [if_neg hwanted, beq_false_of_ne hwanted]

/-- A key whose entries are left out of a list of pairs is the only one that is lost. -/
theorem lookup_filter_ne {κ ι : Type} [BEq κ] [LawfulBEq κ] [DecidableEq κ] (omitted wanted : κ)
    (pairs : List (κ × ι)) :
    (pairs.filter fun pair => pair.1 != omitted).lookup wanted =
      if wanted = omitted then none else pairs.lookup wanted := by
  induction pairs with
  | nil => simp
  | cons pair pairs ih =>
      obtain ⟨name, content⟩ := pair
      rw [lookup_cons_eq]
      by_cases hname : name = omitted
      · rw [List.filter_cons_of_neg (by simpa using hname), ih, hname]
        by_cases hwanted : wanted = omitted
        · rw [if_pos hwanted, if_pos hwanted]
        · rw [if_neg hwanted, if_neg hwanted, if_neg hwanted]
      · rw [List.filter_cons_of_pos (by simpa using hname), lookup_cons_eq, ih]
        by_cases hwanted : wanted = name
        · rw [if_pos hwanted, if_pos hwanted, if_neg (hwanted ▸ hname)]
        · rw [if_neg hwanted, if_neg hwanted]

theorem mem_of_find? {entries : List (String × α)} (h : find? key entries = some value) :
    (key, value) ∈ entries := by
  induction entries with
  | nil => cases h
  | cons entry rest ih =>
      obtain ⟨name, old⟩ := entry
      rw [find?] at h
      by_cases hname : key = name
      · rw [if_pos hname] at h
        cases h
        rw [hname]
        exact List.mem_cons_self
      · rw [if_neg hname] at h
        exact List.mem_cons_of_mem _ (ih h)

theorem mem_insertAll {entry : String × α} {entries : List (String × α)}
    (h : entry ∈ (dict.insertAll entries).entries) : entry ∈ entries ∨ entry ∈ dict.entries := by
  induction entries generalizing dict with
  | nil => exact .inr h
  | cons first rest ih =>
      have hrest : entry ∈ ((dict.insert first.1 first.2).insertAll rest).entries := h
      rcases ih hrest with h | h
      · exact .inl (List.mem_cons_of_mem _ h)
      · rcases mem_insert h with rfl | h
        · exact .inl List.mem_cons_self
        · exact .inr h

theorem get?_insertAll_of_forall_ne {entries : List (String × α)}
    (h : ∀ entry ∈ entries, entry.1 ≠ key) : (dict.insertAll entries).get? key = dict.get? key := by
  induction entries generalizing dict with
  | nil => rfl
  | cons entry rest ih =>
      obtain ⟨hentry, hrest⟩ := List.forall_mem_cons.1 h
      show ((dict.insert entry.1 entry.2).insertAll rest).get? key = _
      rw [ih hrest, get?_insert, if_neg hentry.symm]

/-- The last entry with a key is the one that stays. -/
theorem get?_insertAll_append_cons (before : List (String × α)) {after : List (String × α)}
    (hafter : ∀ entry ∈ after, entry.1 ≠ key) :
    (dict.insertAll (before ++ (key, value) :: after)).get? key = some value := by
  have hsplit : dict.insertAll (before ++ (key, value) :: after) =
      ((dict.insertAll before).insert key value).insertAll after := by
    rw [insertAll, List.foldl_append]
    rfl
  rw [hsplit, get?_insertAll_of_forall_ne hafter, get?_insert, if_pos rfl]

theorem get?_insertAll_of_mem {entries : List (String × α)} (hmem : (key, value) ∈ entries)
    (hvalue : ∀ entry ∈ entries, entry.1 = key → entry.2 = value) :
    (dict.insertAll entries).get? key = some value := by
  induction entries generalizing dict with
  | nil => cases hmem
  | cons entry rest ih =>
      obtain ⟨hentry, hrest⟩ := List.forall_mem_cons.1 hvalue
      show ((dict.insert entry.1 entry.2).insertAll rest).get? key = _
      by_cases hlater : (key, value) ∈ rest
      · exact ih hlater hrest
      · obtain rfl : (key, value) = entry := (List.mem_cons.1 hmem).resolve_right hlater
        have hother : ∀ entry ∈ rest, entry.1 ≠ key := by
          rintro ⟨name, other⟩ hother rfl
          obtain rfl : other = value := hrest _ hother rfl
          exact hlater hother
        rw [get?_insertAll_of_forall_ne hother, get?_insert, if_pos rfl]

/-- What a key leads to after entries were put in depends on nothing but what it led to before. -/
theorem get?_insertAll_congr {other : Dict α} (h : dict.get? key = other.get? key)
    (entries : List (String × α)) :
    (dict.insertAll entries).get? key = (other.insertAll entries).get? key := by
  induction entries generalizing dict other with
  | nil => exact h
  | cons entry rest ih =>
      apply ih
      rw [get?_insert, get?_insert, h]

theorem mem_keys_iff : key ∈ dict.keys ↔ (dict.get? key).isSome = true := by
  rw [keys, get?]
  induction dict.entries with
  | nil => simp [find?]
  | cons entry rest ih =>
      obtain ⟨name, value⟩ := entry
      rw [List.map_cons, List.mem_cons, ih, find?]
      by_cases hname : key = name <;> simp [hname]

theorem mem_keys_ofList {entries : List (String × Unit)} :
    key ∈ (ofList entries).keys ↔ key ∈ entries.map Prod.fst := by
  rw [mem_keys_iff, ofList]
  by_cases hmem : key ∈ entries.map Prod.fst
  · obtain ⟨entry, hentry, rfl⟩ := List.mem_map.1 hmem
    have hget : ((empty : Dict Unit).insertAll entries).get? entry.1 = some entry.2 :=
      get?_insertAll_of_mem hentry fun _ _ _ => rfl
    simp [hget, hmem]
  · have hother : ∀ entry ∈ entries, entry.1 ≠ key := fun entry hentry heq =>
      hmem (List.mem_map.2 ⟨entry, hentry, heq⟩)
    have hget : ((empty : Dict Unit).insertAll entries).get? key = none :=
      get?_insertAll_of_forall_ne hother
    simp [hget, hmem]

theorem get?_foldl_insertMissing (entries : List (String × α)) (dict : Dict α) (key : String) :
    (entries.foldl (fun dict entry => dict.insertMissing entry.1 entry.2) dict).get? key =
      (dict.get? key).or (find? key entries) := by
  induction entries generalizing dict with
  | nil => simp [find?]
  | cons entry entries ih =>
      obtain ⟨name, value⟩ := entry
      rw [List.foldl_cons, ih, get?_insertMissing, find?]
      by_cases hkey : key = name
      · subst hkey
        cases dict.get? key <;> simp
      · rw [if_neg hkey, if_neg hkey]

theorem get?_mergeMissing (dict other : Dict α) (key : String) :
    (dict.mergeMissing other).get? key = (dict.get? key).or (other.get? key) :=
  get?_foldl_insertMissing other.entries dict key

/-- The entry that a key leads to is the only one with this key. -/
theorem exists_eq_append_cons (h : dict.get? key = some value) :
    ∃ before after, dict.entries = before ++ (key, value) :: after ∧
      ∀ entry ∈ before ++ after, entry.1 ≠ key := by
  obtain ⟨before, after, hentries⟩ := List.append_of_mem (mem_of_find? h)
  refine ⟨before, after, hentries, fun entry hentry heq => ?_⟩
  have hsorted := dict.isSorted
  rw [IsSorted, hentries] at hsorted
  obtain ⟨-, hafter, hbefore⟩ := List.pairwise_append.1 hsorted
  rcases List.mem_append.1 hentry with hentry | hentry
  · have hlt : entry.1 < key := hbefore entry hentry _ List.mem_cons_self
    exact String.lt_irrefl key (heq ▸ hlt)
  · have hlt : key < entry.1 := (List.pairwise_cons.1 hafter).1 entry hentry
    exact String.lt_irrefl key (heq ▸ hlt)

end PromptSheet.Dict
