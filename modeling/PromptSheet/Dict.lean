/-!
Dictionaries with text keys, kept in the order of their keys. A key is compared by code points, so
the order of the entries never depends on the order in which they came. What a dictionary means is
`get?`: the laws below say how each operation changes it. That the entries are in order is part of
every dictionary, and each operation is one on lists that keeps this order.
-/

namespace PromptSheet

namespace Dict

/-- Entries of which each has a larger key than the one before it, and the first a larger one than the
bound. A list with a proof would do for this, but the values of templates are themselves records, and
an inductive type cannot be nested in a type that states something about its elements. -/
inductive Chain (α : Type) : Option String → Type where
  | nil {bound : Option String} : Chain α bound
  | cons {bound : Option String} (key : String) (value : α) (above : ∀ lower ∈ bound, lower < key)
      (rest : Chain α (some key)) : Chain α bound

end Dict

structure Dict (α : Type) where
  chain : Dict.Chain α none := .nil

namespace Dict

variable {α : Type}

/-- Every key stands once, and before the larger ones. -/
def IsSorted (entries : List (String × α)) : Prop :=
  entries.Pairwise fun entry next => entry.1 < next.1

instance (entries : List (String × α)) : Decidable (IsSorted entries) :=
  inferInstanceAs (Decidable (List.Pairwise _ _))

namespace Chain

variable {bound : Option String}

def entries {bound : Option String} : Chain α bound → List (String × α)
  | .nil => []
  | .cons key value _ rest => (key, value) :: rest.entries

def ofEntries {bound : Option String} :
    (entries : List (String × α)) → IsSorted entries →
      (∀ lower ∈ bound, ∀ entry ∈ entries, lower < entry.1) → Chain α bound
  | [], _, _ => .nil
  | (key, value) :: rest, hsorted, habove =>
    .cons key value (fun lower hlower => habove lower hlower _ List.mem_cons_self)
      (ofEntries rest (List.pairwise_cons.1 hsorted).2 fun _ hlower entry hentry =>
        Option.mem_some.1 hlower ▸ (List.pairwise_cons.1 hsorted).1 entry hentry)

theorem entries_ofEntries (entries : List (String × α)) (hsorted : IsSorted entries)
    (habove : ∀ lower ∈ bound, ∀ entry ∈ entries, lower < entry.1) :
    (ofEntries entries hsorted habove).entries = entries := by
  induction entries generalizing bound with
  | nil => rfl
  | cons entry rest ih => exact congrArg (entry :: ·) (ih _ _)

theorem lt_of_mem (chain : Chain α bound) :
    ∀ lower ∈ bound, ∀ entry ∈ chain.entries, lower < entry.1 := by
  induction chain with
  | nil => nofun
  | cons key value above rest ih =>
      intro lower hlower entry hentry
      rcases List.mem_cons.1 hentry with rfl | hentry
      · exact above lower hlower
      · exact String.lt_trans (above lower hlower) (ih key rfl entry hentry)

theorem isSorted_entries (chain : Chain α bound) : IsSorted chain.entries := by
  induction chain with
  | nil => exact .nil
  | cons key value above rest ih => exact .cons (rest.lt_of_mem key rfl) ih

theorem entries_inj (chain other : Chain α bound) (h : chain.entries = other.entries) :
    chain = other := by
  induction chain with
  | nil =>
      cases other with
      | nil => rfl
      | cons key value above rest => cases h
  | cons key value above rest ih =>
      cases other with
      | nil => cases h
      | cons name content above' rest' =>
          obtain ⟨hentry, hrest⟩ := List.cons.inj h
          cases hentry
          rw [ih rest' hrest]

end Chain

def entries (dict : Dict α) : List (String × α) :=
  dict.chain.entries

theorem isSorted (dict : Dict α) : IsSorted dict.entries :=
  dict.chain.isSorted_entries

@[ext]
theorem ext {dict other : Dict α} (h : dict.entries = other.entries) : dict = other :=
  congrArg Dict.mk (Chain.entries_inj dict.chain other.chain h)

def ofSorted (entries : List (String × α)) (h : IsSorted entries := by decide) : Dict α :=
  ⟨.ofEntries entries h fun _ hlower => nomatch hlower⟩

@[simp]
theorem entries_ofSorted (entries : List (String × α)) (h : IsSorted entries) :
    (ofSorted entries h).entries = entries :=
  Chain.entries_ofEntries entries h _

def empty : Dict α := {}

instance : Inhabited (Dict α) := ⟨empty⟩

def find? (key : String) : List (String × α) → Option α
  | [] => none
  | (name, value) :: rest => if key = name then some value else find? key rest

def get? (dict : Dict α) (key : String) : Option α :=
  find? key dict.entries

def contains (dict : Dict α) (key : String) : Bool :=
  (dict.get? key).isSome

/-- Replaces the entry with this key, or puts a new one before the first larger key. -/
def insertEntry (key : String) (value : α) : List (String × α) → List (String × α)
  | [] => [(key, value)]
  | (name, old) :: rest =>
    if key = name then (key, value) :: rest
    else if key < name then (key, value) :: (name, old) :: rest
    else (name, old) :: insertEntry key value rest

theorem mem_insertEntry {key : String} {value : α} {entry : String × α}
    {entries : List (String × α)} (h : entry ∈ insertEntry key value entries) :
    entry = (key, value) ∨ entry ∈ entries := by
  induction entries with
  | nil => exact .inl (List.mem_singleton.1 h)
  | cons first rest ih =>
      obtain ⟨name, old⟩ := first
      rw [insertEntry] at h
      split at h
      · exact (List.mem_cons.1 h).imp id (List.mem_cons_of_mem _)
      · split at h
        · exact List.mem_cons.1 h
        · rcases List.mem_cons.1 h with rfl | h
          · exact .inr List.mem_cons_self
          · exact (ih h).imp id (List.mem_cons_of_mem _)

theorem isSorted_insertEntry {entries : List (String × α)} (h : IsSorted entries) (key : String)
    (value : α) : IsSorted (insertEntry key value entries) := by
  induction entries with
  | nil => exact List.pairwise_singleton _ _
  | cons first rest ih =>
      obtain ⟨name, old⟩ := first
      obtain ⟨hfirst, hrest⟩ := List.pairwise_cons.1 h
      rw [insertEntry]
      by_cases hname : key = name
      · rw [if_pos hname]
        subst hname
        exact List.pairwise_cons.2 ⟨hfirst, hrest⟩
      · rw [if_neg hname]
        by_cases hlt : key < name
        · rw [if_pos hlt]
          refine List.pairwise_cons.2 ⟨fun entry hentry => ?_, h⟩
          rcases List.mem_cons.1 hentry with rfl | hentry
          · exact hlt
          · exact String.lt_trans hlt (hfirst entry hentry)
        · rw [if_neg hlt]
          have hgt : name < key := Std.lt_of_le_of_ne (String.not_lt.1 hlt) (Ne.symm hname)
          refine List.pairwise_cons.2 ⟨fun entry hentry => ?_, ih hrest⟩
          rcases mem_insertEntry hentry with rfl | hentry
          · exact hgt
          · exact hfirst entry hentry

def insert (dict : Dict α) (key : String) (value : α) : Dict α :=
  ofSorted (insertEntry key value dict.entries) (isSorted_insertEntry dict.isSorted key value)

def erase (dict : Dict α) (key : String) : Dict α :=
  ofSorted (dict.entries.filter fun entry => entry.1 != key) (dict.isSorted.filter _)

/-- Inserts the entries one after the other, so the last of two with one key stays. -/
def insertAll (dict : Dict α) (entries : List (String × α)) : Dict α :=
  entries.foldl (fun dict entry => dict.insert entry.1 entry.2) dict

def ofList (entries : List (String × α)) : Dict α :=
  insertAll empty entries

def size (dict : Dict α) : Nat :=
  dict.entries.length

def keys (dict : Dict α) : List String :=
  dict.entries.map Prod.fst

/-- Copies in an entry unless its key is taken. -/
def insertMissing (dict : Dict α) (key : String) (value : α) : Dict α :=
  if dict.contains key then dict else dict.insert key value

def mergeMissing (dict other : Dict α) : Dict α :=
  other.entries.foldl (fun dict entry => dict.insertMissing entry.1 entry.2) dict

/-- An entry may be left out, but what becomes of it keeps its key. -/
def filterMap {β : Type} (f : α → Option β) (dict : Dict α) : Dict β :=
  ofSorted (dict.entries.filterMap fun entry => (f entry.2).map fun value => (entry.1, value)) <|
    List.pairwise_filterMap.2 <| dict.isSorted.imp fun hlt first hfirst second hsecond => by
      obtain ⟨_, _, rfl⟩ := Option.map_eq_some_iff.1 hfirst
      obtain ⟨_, _, rfl⟩ := Option.map_eq_some_iff.1 hsecond
      exact hlt

@[simp]
theorem entries_empty : (empty : Dict α).entries = [] := rfl

@[simp]
theorem entries_insert (dict : Dict α) (key : String) (value : α) :
    (dict.insert key value).entries = insertEntry key value dict.entries :=
  entries_ofSorted _ _

theorem mem_insert {dict : Dict α} {key : String} {value : α} {entry : String × α}
    (h : entry ∈ (dict.insert key value).entries) : entry = (key, value) ∨ entry ∈ dict.entries :=
  mem_insertEntry (entries_insert dict key value ▸ h)

@[simp]
theorem entries_erase (dict : Dict α) (key : String) :
    (dict.erase key).entries = dict.entries.filter fun entry => entry.1 != key :=
  entries_ofSorted _ _

@[simp]
theorem entries_filterMap {β : Type} (f : α → Option β) (dict : Dict α) :
    (dict.filterMap f).entries =
      dict.entries.filterMap fun entry => (f entry.2).map fun value => (entry.1, value) :=
  entries_ofSorted _ _

theorem find?_insertEntry (key other : String) (value : α) (entries : List (String × α)) :
    find? other (insertEntry key value entries) =
      if other = key then some value else find? other entries := by
  induction entries with
  | nil => simp [insertEntry, find?]
  | cons entry rest ih =>
    obtain ⟨name, old⟩ := entry
    by_cases hname : key = name
    · subst hname
      by_cases h : other = key <;> simp [insertEntry, find?, h]
    · by_cases hlt : key < name
      · simp [insertEntry, find?, hname, hlt]
      · by_cases h : other = name
        · subst h
          simp [insertEntry, find?, hlt, hname, Ne.symm hname]
        · simp [insertEntry, find?, hlt, hname, h, ih]

@[simp]
theorem get?_empty (key : String) : (empty : Dict α).get? key = none := rfl

@[simp]
theorem get?_insert (dict : Dict α) (key other : String) (value : α) :
    (dict.insert key value).get? other = if other = key then some value else dict.get? other := by
  rw [get?, entries_insert, find?_insertEntry, get?]

theorem get?_insertMissing (dict : Dict α) (key other : String) (value : α) :
    (dict.insertMissing key value).get? other =
      if other = key then some ((dict.get? key).getD value) else dict.get? other := by
  unfold insertMissing contains
  cases h : dict.get? key with
  | none => simp
  | some old =>
    by_cases hkey : other = key
    · simp [hkey, h]
    · simp [hkey]

theorem find?_filter_ne (key other : String) (entries : List (String × α)) :
    find? other (entries.filter (fun entry => entry.1 != key)) =
      if other = key then none else find? other entries := by
  induction entries with
  | nil => simp [find?]
  | cons entry rest ih =>
    obtain ⟨name, value⟩ := entry
    by_cases hname : name = key
    · subst hname
      by_cases h : other = name <;> simp_all [find?]
    · by_cases h : other = name
      · subst h
        simp [find?, hname]
      · simp [find?, hname, h, ih]

@[simp]
theorem get?_erase (dict : Dict α) (key other : String) :
    (dict.erase key).get? other = if other = key then none else dict.get? other := by
  rw [get?, entries_erase, find?_filter_ne, get?]

end Dict

end PromptSheet
