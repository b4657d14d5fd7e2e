import PromptSheet.Proofs.DictLaws
import PromptSheet.Proofs.FilePlaces

/-!
# What writing a file leaves as it was

A file is written into a directory that is there, and never in the place of a directory. So no path
leads anywhere else afterwards, and what is found at all other places is found as before.
-/

namespace PromptSheet.FileTree

variable {files after : FileTree} {place other : List String} {entry : Entry} {path content : String}

/-- One file holds a text, whatever was there before, and all else is as it was. -/
structure OnlyWritten (files after : FileTree) (path content : String) : Prop where
  holds : after.readText? path = some content
  leads : ∀ other, after.place? other = files.place? other
  others : ∀ place, files.place? path ≠ some place → after.find? place = files.find? place

theorem lookup_put (files : FileTree) (place other : List String) (entry : Entry) :
    (files.put place entry).entries.lookup other =
      if other = place then some entry else files.entries.lookup other := by
  show ((place, entry) :: files.entries.filter fun old => old.1 != place).lookup other = _
  rw [Dict.lookup_cons_eq, Dict.lookup_filter_ne]
  by_cases hother : other = place
  · rw [if_pos hother, if_pos hother]
  · rw [if_neg hother, if_neg hother, if_neg hother]

theorem mem_put {old : List String × Entry} : old ∈ (files.put place entry).entries ↔
    old = (place, entry) ∨ old ∈ files.entries ∧ old.1 ≠ place := by
  show old ∈ (place, entry) :: files.entries.filter (fun old => old.1 != place) ↔ _
  rw [List.mem_cons, List.mem_filter, bne_iff_ne]

/-- Whether some entry stands at a place or below it. -/
def isOnWay (files : FileTree) (place : List String) : Bool :=
  files.entries.any fun entry => place.isPrefixOf entry.1

theorem isOnWay_iff : files.isOnWay place = true ↔ ∃ entry ∈ files.entries, place <+: entry.1 := by
  simp [isOnWay]

theorem find?_of_not_home (hhome : ¬place <+: files.home) :
    files.find? place = (files.entries.lookup place).or
      (if files.isOnWay place then some .directory else none) := by
  rw [find?, if_neg (by simpa using hhome), isOnWay]
  cases files.entries.lookup place <;> rfl

/-- A directory is known by its own entry or by one below it, and so is all that is above it. -/
theorem isOnWay_of_isDirectoryAt (hdirectory : files.isDirectoryAt place = true)
    (hother : other <+: place) (hhome : ¬other <+: files.home) : files.isOnWay other = true := by
  have hplace : files.isOnWay place = true := by
    rw [isDirectoryAt, beq_iff_eq,
      find?_of_not_home fun hplace => hhome (hother.trans hplace)] at hdirectory
    cases hlookup : files.entries.lookup place with
    | some found =>
        exact isOnWay_iff.2 ⟨_, mem_of_lookup hlookup, List.prefix_rfl⟩
    | none =>
        rw [hlookup, Option.none_or] at hdirectory
        exact (Option.ite_none_right_eq_some.1 hdirectory).1
  obtain ⟨below, hbelow, habove⟩ := isOnWay_iff.1 hplace
  exact isOnWay_iff.2 ⟨below, hbelow, hother.trans habove⟩

theorem not_isPrefix_home (hfree : files.isDirectoryAt place = false) : ¬place <+: files.home := by
  intro hhome
  rw [isDirectoryAt, find?, if_pos (List.isPrefixOf_iff_prefix.2 hhome)] at hfree
  cases hfree

theorem find?_put_self (hfree : files.isDirectoryAt place = false) :
    (files.put place entry).find? place = some entry := by
  have hhome : ¬place <+: files.home := not_isPrefix_home hfree
  have hput : ¬place <+: (files.put place entry).home := hhome
  rw [find?_of_not_home hput, lookup_put, if_pos rfl]
  rfl

section Parent

variable (hparent : files.isDirectoryAt place.dropLast = true)

include hparent

theorem isOnWay_put (hother : other ≠ place) (hhome : ¬other <+: files.home) :
    (files.put place entry).isOnWay other = files.isOnWay other := by
  rw [Bool.eq_iff_iff]
  constructor
  · intro h
    obtain ⟨below, hbelow, habove⟩ := isOnWay_iff.1 h
    rcases mem_put.1 hbelow with rfl | ⟨hbelow, -⟩
    · -- What is above the new entry is not below it, so it is above its directory.
      obtain ⟨rest, rfl⟩ := habove
      have hrest : rest ≠ [] := by
        rintro rfl
        exact hother (List.append_nil other).symm
      rw [List.dropLast_append_of_ne_nil hrest] at hparent
      exact isOnWay_of_isDirectoryAt hparent (List.prefix_append other _) hhome
    · exact isOnWay_iff.2 ⟨below, hbelow, habove⟩
  · intro h
    obtain ⟨below, hbelow, habove⟩ := isOnWay_iff.1 h
    by_cases hplace : below.1 = place
    · exact isOnWay_iff.2 ⟨_, mem_put.2 (.inl rfl), hplace ▸ habove⟩
    · exact isOnWay_iff.2 ⟨below, mem_put.2 (.inr ⟨hbelow, hplace⟩), habove⟩

theorem find?_put_of_ne (hother : other ≠ place) :
    (files.put place entry).find? other = files.find? other := by
  by_cases hhome : other <+: files.home
  · have hdirectory : other.isPrefixOf files.home = true := List.isPrefixOf_iff_prefix.2 hhome
    rw [find?, find?, if_pos hdirectory]
    exact if_pos hdirectory
  · have hput : ¬other <+: (files.put place entry).home := hhome
    rw [find?_of_not_home hhome, find?_of_not_home hput, lookup_put, if_neg hother,
      isOnWay_put hparent hother hhome]

/-- A file in the place of a file, or of nothing, is no directory where there was none. -/
theorem isDirectoryAt_put (hfree : files.isDirectoryAt place = false)
    (hfile : entry ≠ .directory) (other : List String) :
    (files.put place entry).isDirectoryAt other = files.isDirectoryAt other := by
  by_cases hother : other = place
  · rw [hother, hfree, isDirectoryAt, find?_put_self hfree]
    simpa using hfile
  · rw [isDirectoryAt, isDirectoryAt, find?_put_of_ne hparent hother]

theorem walk?_put (hfree : files.isDirectoryAt place = false) (hfile : entry ≠ .directory)
    (start names : List String) :
    (files.put place entry).walk? start names = files.walk? start names := by
  induction names generalizing start with
  | nil => rfl
  | cons name names ih =>
      rw [walk?, walk?, isDirectoryAt_put hparent hfree hfile, ih, ih, ih]

theorem place?_put (hfree : files.isDirectoryAt place = false) (hfile : entry ≠ .directory)
    (path : String) : (files.put place entry).place? path = files.place? path := by
  rw [place?, place?, walk?_put hparent hfree hfile]
  rfl

end Parent

/-- What a file can be written to: a place without a directory, in a directory. -/
theorem exists_put_of_write? (h : files.write? path content = some after) :
    ∃ place, files.place? path = some place ∧ files.isDirectoryAt place = false ∧
      files.isDirectoryAt place.dropLast = true ∧ after = files.put place (.text content) := by
  obtain ⟨place, hplace, hwrite⟩ := Option.bind_eq_some_iff.1 h
  obtain ⟨hfits, hwrite⟩ := Option.ite_none_left_eq_some.1 hwrite
  obtain ⟨-, hafter⟩ := Option.ite_none_left_eq_some.1 hwrite
  simp only [Bool.or_eq_true, Bool.not_eq_true', not_or, Bool.not_eq_true, Bool.not_eq_false]
    at hfits
  exact ⟨place, hplace, hfits.1, hfits.2, (Option.some.inj hafter).symm⟩

/-- **Writing a file changes no other file**, and no path leads to another place because of it. -/
theorem onlyWritten_of_write? (h : files.write? path content = some after) :
    files.OnlyWritten after path content := by
  obtain ⟨place, hplace, hfree, hparent, rfl⟩ := exists_put_of_write? h
  have hfile : Entry.text content ≠ .directory := Entry.noConfusion
  have hleads := place?_put hparent hfree hfile
  constructor
  · rw [readText?, get?, hleads, hplace, Option.bind_some, find?_put_self hfree]
  · exact hleads
  · intro other hother
    apply find?_put_of_ne hparent
    rintro rfl
    exact hother hplace

end PromptSheet.FileTree
