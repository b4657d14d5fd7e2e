import PromptSheet.Library
import PromptSheet.Proofs.DictLaws
import PromptSheet.Proofs.FilePlaces

/-!
# Which of the listed names lead to a template

A library lists names without an ending, and finds a template by its name with or without one. A name
that has no ending is looked up as it was registered, and as a file with any of the endings, so it is
found whenever it was registered or listed for a file. Where dropping an ending leaves another one, or
the text was registered with an ending, the listed name is not the name that was registered, and may
lead nowhere.
-/

namespace PromptSheet.Library

/-- Looking the name up finds a template, though perhaps one that cannot be read. -/
def Resolves (library : Library) (files : FileTree) (name : String) : Prop :=
  library.get files name ≠ .error (.templateNotFound name)

/-- Some path under which the file of this name would be looked up is too long for one. -/
def IsTooLong (directory name : String) : Prop :=
  ∃ ending ∈ endings,
    FileTree.pathLimit ≤ (FileTree.join directory (name ++ ending)).utf8ByteSize

instance (directory name : String) : Decidable (IsTooLong directory name) :=
  inferInstanceAs (Decidable (∃ ending ∈ endings, _ ≤ _))

section Names

variable {library : Library} {files : FileTree} {name base ending directory : String}
  {place : List String}

theorem resolves_iff :
    library.Resolves files name ↔
      (library.text? name).isSome = true ∨ (library.file? files name).isSome = true := by
  rw [Resolves, get]
  cases library.text? name with
  | some text => simp
  | none =>
      cases library.file? files name with
      | none => simp
      | some path => cases hread : files.readText? path <;> simp [hread]

theorem dropEnding?_eq_some (h : dropEnding? ending name = some base) : base ++ ending = name := by
  unfold dropEnding? at h
  split at h
  · next hsuffix =>
    have htake := List.suffix_iff_eq_append.1 (List.isSuffixOf_iff_suffix.1 hsuffix)
    apply String.toList_inj.1
    rw [← Option.some.inj h, String.toList_append, String.toList_ofList, htake]
  · cases h

theorem exists_ending (h : templateName? name = some base) :
    ∃ ending ∈ endings, base ++ ending = name := by
  obtain ⟨before, ending, after, hendings, hdrop, _⟩ := List.findSome?_eq_some_iff.1 h
  refine ⟨ending, ?_, dropEnding?_eq_some hdrop⟩
  rw [hendings]
  exact List.mem_append_right _ List.mem_cons_self

theorem intercalate_append_last (place : List String) (last ending : String) :
    "/".intercalate (place ++ [last ++ ending]) = "/".intercalate (place ++ [last]) ++ ending := by
  by_cases hplace : place = []
  · simp [hplace]
  · rw [String.intercalate_append_of_ne_nil hplace (by simp),
      String.intercalate_append_of_ne_nil hplace (by simp), String.intercalate_singleton,
      String.intercalate_singleton, String.append_assoc, String.append_assoc, String.append_assoc]

theorem exists_path_of_listedName? (h : listedName? place = some name) :
    ∃ ending ∈ endings, "/".intercalate place = name ++ ending := by
  obtain ⟨base, hbase, rfl⟩ := Option.map_eq_some_iff.1 h
  obtain ⟨last, hlast, hname⟩ := Option.bind_eq_some_iff.1 hbase
  obtain ⟨front, rfl⟩ := List.getLast?_eq_some_iff.1 hlast
  obtain ⟨ending, hending, rfl⟩ := exists_ending hname
  exact ⟨ending, hending, by rw [List.dropLast_concat, intercalate_append_last]⟩

theorem mem_names :
    name ∈ library.names files ↔
      (∃ key ∈ library.texts.keys, baseName key = name) ∨
        ∃ directory ∈ library.directories, name ∈ directoryNames files directory := by
  rw [names, Dict.mem_keys_ofList, List.map_map]
  simp [Function.comp_def, List.mem_flatMap]

/-- A text that was registered under a name without an ending is found under it. -/
theorem resolves_of_mem_keys (h : name ∈ library.texts.keys) : library.Resolves files name := by
  obtain ⟨text, htext⟩ := Option.isSome_iff_exists.1 (Dict.mem_keys_iff.1 h)
  refine resolves_iff.2 (.inl ?_)
  rw [text?, htext]
  rfl

/-- The file for which a name without an ending is listed is found under it. -/
theorem resolves_of_mem_directoryNames (hfiles : files.IsWellFormed)
    (hdirectory : directory ∈ library.directories) (h : name ∈ directoryNames files directory)
    (hbare : templateName? name = none) (hshort : ¬IsTooLong directory name) :
    library.Resolves files name := by
  obtain ⟨place, hmem, hlisted⟩ := List.mem_filterMap.1 h
  obtain ⟨ending, hending, hpath⟩ := exists_path_of_listedName? hlisted
  have hlength : (FileTree.join directory (name ++ ending)).utf8ByteSize < FileTree.pathLimit :=
    Nat.lt_of_not_le fun hlong => hshort ⟨ending, hending, hlong⟩
  rw [← hpath] at hlength
  have hisFile := hfiles.isFile_join hmem hlength
  have hcandidate : name ++ ending ∈ candidates name := by
    simp only [candidates, hbare, Option.isSome_none, Bool.false_eq_true, if_false]
    exact List.mem_map_of_mem hending
  have hfound : FileTree.join directory (name ++ ending) ∈
      library.directories.flatMap fun directory =>
        (candidates name).map (FileTree.join directory) :=
    List.mem_flatMap.2 ⟨directory, hdirectory, List.mem_map_of_mem hcandidate⟩
  rw [hpath] at hisFile
  exact resolves_iff.2 (.inr (List.find?_isSome.2 ⟨_, hfound, hisFile⟩))

/-- **Listed names lead to a template** exactly when those do that had an ending dropped from the name
of a text, that still have an ending, or that stand for a path which is too long. -/
theorem forall_names_resolve_iff (library : Library) (files : FileTree)
    (hfiles : files.IsWellFormed) :
    (∀ name ∈ library.names files, library.Resolves files name) ↔
      (∀ key ∈ library.texts.keys, ∀ name, templateName? key = some name →
        library.Resolves files name) ∧
      ∀ directory ∈ library.directories, ∀ name ∈ directoryNames files directory,
        (templateName? name).isSome = true ∨ IsTooLong directory name →
          library.Resolves files name := by
  constructor
  · intro h
    refine ⟨fun key hkey name hname => ?_, fun directory hdirectory name hname _ => ?_⟩
    · exact h name (mem_names.2 (.inl ⟨key, hkey, by rw [baseName, hname]; rfl⟩))
    · exact h name (mem_names.2 (.inr ⟨directory, hdirectory, hname⟩))
  · rintro ⟨htexts, hdirectories⟩ name hname
    rcases mem_names.1 hname with ⟨key, hkey, rfl⟩ | ⟨directory, hdirectory, hlisted⟩
    · cases hbase : templateName? key with
      | none =>
          rw [baseName, hbase]
          exact resolves_of_mem_keys hkey
      | some base =>
          rw [baseName, hbase]
          exact htexts key hkey base hbase
    · by_cases hdoubtful : (templateName? name).isSome = true ∨ IsTooLong directory name
      · exact hdirectories directory hdirectory name hlisted hdoubtful
      · obtain ⟨hbare, hshort⟩ := not_or.1 hdoubtful
        exact resolves_of_mem_directoryNames hfiles hdirectory hlisted (by simpa using hbare) hshort

end Names

def shelf : FileTree :=
  { entries := [(["t", "x.yaml.yaml"], .text "x"), (["t", "parts", "y.yml"], .text "y")] }

def upperShelf : Library :=
  { texts := .ofList [("b", "z")], directories := ["t/parts"] }

theorem names_resolve_upperShelf :
    shelf.IsWellFormed ∧ ∀ name ∈ upperShelf.names shelf, upperShelf.Resolves shelf name := by
  have hshelf : shelf.IsWellFormed := by decide
  refine ⟨hshelf, (forall_names_resolve_iff upperShelf shelf hshelf).2 ⟨?_, ?_⟩⟩
  · intro key hkey name hname
    obtain rfl : key = "b" := List.mem_singleton.1 hkey
    cases hname
  · intro directory hdirectory name hname hdoubtful
    obtain rfl : directory = "t/parts" := List.mem_singleton.1 hdirectory
    obtain rfl : name = "y" := List.mem_singleton.1 hname
    exact absurd hdoubtful (by decide)

/-- A text that is registered with an ending, and a file that has two. -/
theorem not_all_names_resolve :
    "a" ∈ (({} : Library).addText "a.yaml" "x").names {} ∧
      (({} : Library).addText "a.yaml" "x").get {} "a" = .error (.templateNotFound "a") ∧
    shelf.IsWellFormed ∧ ({} : Library).addDirectory shelf "t" = .ok { directories := ["t"] } ∧
      "x.yaml" ∈ ({ directories := ["t"] } : Library).names shelf ∧
      ({ directories := ["t"] } : Library).get shelf "x.yaml" =
        .error (.templateNotFound "x.yaml") :=
  ⟨by decide, rfl, by decide, rfl, by decide, rfl⟩

end PromptSheet.Library
