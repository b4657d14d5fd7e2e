import Mathlib.Data.List.Induction
import PromptSheet.Proofs.Listing

/-!
# What a library answers after any history

A library is made of texts and directories that are registered one after the other, each directory
among the files of its own time. What it answers for a name can be read off the history: the last
text that was given to the name, else the last one that was given to it without its ending, else the
first file that stands for it now, in the order of the directories. So a later directory decides only
over names that nothing answered to, and a later text only over its own name.
-/

namespace PromptSheet

inductive Registration where
  | text (name text : String)
  | directory (files : FileTree) (path : String)

namespace Library

def register (library : Library) : Registration → Library
  | .text name text => library.addText name text
  | .directory files path =>
    match library.addDirectory files path with
    | .ok later => later
    | .error _ => library

/-- A library after some registrations. -/
def registered (prunes : Bool) (limit : Nat) (calls : List Registration) : Library :=
  calls.foldl register { prunes, limit }

/-! ### The history, read

What is known under a name, said of the registrations alone, without the tables that a library keeps
of them.
-/

/-- The text was given to the name, and no other one later. -/
def Latest (calls : List Registration) (name text : String) : Prop :=
  ∃ before after, calls = before ++ .text name text :: after ∧ ∀ later, .text name later ∉ after

/-- The text of a name. One that was given to the name itself comes before one that was given to the
name without its ending. -/
inductive HasText (calls : List Registration) (name text : String) : Prop where
  | whole (h : Latest calls name text)
  | bare {base ending : String} (hwhole : ∀ other, ¬Latest calls name other)
      (hending : ending ∈ endings) (hname : base ++ ending = name) (h : Latest calls base text)

/-- The directories that were there when they were registered, in the order in which they were. -/
def directoriesOf (calls : List Registration) : List String :=
  calls.filterMap fun
    | .text _ _ => none
    | .directory files path => if files.isDirectory path then some path else none

/-- A name with an ending stands for the file of that name only, a name without one for a file with
the first ending that there is one with. -/
inductive StandsFor (files : FileTree) (directory name : String) : String → Prop where
  | whole {base ending : String} (hending : ending ∈ endings) (hname : base ++ ending = name)
      (hfile : files.isFile (FileTree.join directory name) = true) :
      StandsFor files directory name (FileTree.join directory name)
  | yaml (hbare : ∀ base, ∀ ending ∈ endings, base ++ ending ≠ name)
      (hfile : files.isFile (FileTree.join directory (name ++ ".yaml")) = true) :
      StandsFor files directory name (FileTree.join directory (name ++ ".yaml"))
  | yml (hbare : ∀ base, ∀ ending ∈ endings, base ++ ending ≠ name)
      (hyaml : files.isFile (FileTree.join directory (name ++ ".yaml")) = false)
      (hfile : files.isFile (FileTree.join directory (name ++ ".yml")) = true) :
      StandsFor files directory name (FileTree.join directory (name ++ ".yml"))

/-- The file that stands for the name in the first directory that has one. -/
def HasFile (calls : List Registration) (files : FileTree) (name path : String) : Prop :=
  ∃ before directory after, directoriesOf calls = before ++ directory :: after ∧
    (∀ earlier ∈ before, ∀ path, ¬StandsFor files earlier name path) ∧
    StandsFor files directory name path

inductive Answers (calls : List Registration) (files : FileTree) (name : String) :
    Except Error String → Prop where
  | text {text : String} (h : HasText calls name text) : Answers calls files name (.ok text)
  | file {path text : String} (htext : ∀ text, ¬HasText calls name text)
      (hfile : HasFile calls files name path) (hread : files.readText? path = some text) :
      Answers calls files name (.ok text)
  | unreadable {path : String} (htext : ∀ text, ¬HasText calls name text)
      (hfile : HasFile calls files name path) (hread : files.readText? path = none) :
      Answers calls files name (.error (.unreadable path))
  | missing (htext : ∀ text, ¬HasText calls name text)
      (hfile : ∀ path, ¬HasFile calls files name path) :
      Answers calls files name (.error (.templateNotFound name))

theorem eq_none_iff_of_some {α : Type} {found : Option α} {P : α → Prop}
    (h : ∀ value, found = some value ↔ P value) : found = none ↔ ∀ value, ¬P value :=
  Option.eq_none_iff_forall_ne_some.trans (forall_congr' fun value => not_congr (h value))

variable {calls : List Registration} {call : Registration} {library : Library} {files : FileTree}
  {prunes : Bool} {limit : Nat} {name text base ending directory path : String}

theorem dropEnding?_append (base ending : String) :
    dropEnding? ending (base ++ ending) = some base := by
  have hsuffix : ending.toList.isSuffixOf (base ++ ending).toList = true := by
    rw [List.isSuffixOf_iff_suffix, String.toList_append]
    exact List.suffix_append ..
  rw [dropEnding?, if_pos hsuffix, String.toList_append, List.length_append,
    Nat.add_sub_cancel, List.take_left, String.ofList_toList]

/-- Of the two endings no text has both. -/
theorem dropEnding?_yaml_append_yml (base : String) : dropEnding? ".yaml" (base ++ ".yml") = none := by
  refine if_neg fun hyaml => ?_
  have hyml : ".yml".toList <:+ (base ++ ".yml").toList := by
    rw [String.toList_append]
    exact List.suffix_append ..
  have hboth : ".yml".toList <:+ ".yaml".toList :=
    List.suffix_of_suffix_length_le hyml (List.isSuffixOf_iff_suffix.1 hyaml) (by decide)
  revert hboth
  decide

theorem templateName?_eq_some_iff :
    templateName? name = some base ↔ ∃ ending ∈ endings, base ++ ending = name := by
  refine ⟨exists_ending, ?_⟩
  rintro ⟨ending, hending, rfl⟩
  have hcases : ending = ".yaml" ∨ ending = ".yml" := by simpa [endings] using hending
  rw [templateName?, endings, List.findSome?_cons, List.findSome?_cons]
  rcases hcases with rfl | rfl
  · rw [dropEnding?_append]
  · rw [dropEnding?_yaml_append_yml, dropEnding?_append]

theorem templateName?_eq_none_iff :
    templateName? name = none ↔ ∀ base, ∀ ending ∈ endings, base ++ ending ≠ name := by
  rw [eq_none_iff_of_some fun base => templateName?_eq_some_iff]
  refine forall_congr' fun base => ?_
  rw [not_exists]
  exact forall_congr' fun ending => not_and

theorem registered_concat : registered prunes limit (calls ++ [call]) =
    (registered prunes limit calls).register call := by
  rw [registered, List.foldl_append]
  rfl

theorem latest_concat : Latest (calls ++ [call]) name text ↔
    call = .text name text ∨ (∀ other, call ≠ .text name other) ∧ Latest calls name text := by
  constructor
  · rintro ⟨before, after, hcalls, hlater⟩
    -- Either nothing came after the text, and it is the call, or the call came last of all that did.
    obtain rfl | ⟨after, last, rfl⟩ := after.eq_nil_or_concat
    · obtain ⟨-, hlast⟩ := List.append_inj' hcalls rfl
      exact .inl (List.singleton_inj.1 hlast)
    · rw [List.concat_eq_append, ← List.cons_append, ← List.append_assoc] at hcalls
      obtain ⟨rfl, hlast⟩ := List.append_inj' hcalls rfl
      obtain rfl := List.singleton_inj.1 hlast
      refine .inr ⟨?_, before, after, rfl, fun later hmem => hlater later (by simp [hmem])⟩
      rintro other rfl
      exact hlater other (by simp)
  · rintro (rfl | ⟨hcall, before, after, rfl, hlater⟩)
    · exact ⟨calls, [], rfl, fun later => List.not_mem_nil⟩
    · refine ⟨before, after ++ [call], by simp, fun later hmem => ?_⟩
      rcases List.mem_append.1 hmem with hmem | hmem
      · exact hlater later hmem
      · exact hcall later (List.mem_singleton.1 hmem).symm

theorem texts_register_directory (library : Library) (files : FileTree) (path : String) :
    (library.register (.directory files path)).texts = library.texts := by
  rw [register, addDirectory]
  split
  · next h =>
    split at h
    · cases h
      rfl
    · cases h
  · rfl

theorem get?_texts_registered (calls : List Registration) :
    (registered prunes limit calls).texts.get? name = some text ↔ Latest calls name text := by
  induction calls using List.reverseRecOn with
  | nil =>
      constructor
      · intro h
        cases h
      · rintro ⟨before, after, hcalls, -⟩
        simp at hcalls
  | append_singleton calls call ih =>
      rw [registered_concat, latest_concat, ← ih]
      cases call with
      | directory files path => simp [texts_register_directory]
      | text own content =>
          rw [register, addText, Dict.get?_insert]
          by_cases hown : name = own
          · simp [hown]
          · simp [hown, Ne.symm hown]

theorem text?_registered :
    (registered prunes limit calls).text? name = some text ↔ HasText calls name text := by
  rw [text?]
  cases hwhole : (registered prunes limit calls).texts.get? name with
  | some own =>
      have hlatest : Latest calls name own := (get?_texts_registered calls).1 hwhole
      constructor
      · rintro ⟨⟩
        exact .whole hlatest
      · rintro (h | ⟨hother, -, -, -⟩)
        · exact hwhole.symm.trans ((get?_texts_registered calls).2 h)
        · exact absurd hlatest (hother own)
  | none =>
      have hother : ∀ other, ¬Latest calls name other := by
        intro other hother
        rw [(get?_texts_registered calls).2 hother] at hwhole
        cases hwhole
      show (registered prunes limit calls).texts.get? (baseName name) = some text ↔ _
      rw [baseName]
      constructor
      · intro h
        cases hname : templateName? name with
        | none =>
            rw [hname] at h
            exact absurd ((get?_texts_registered calls).1 h) (hother text)
        | some base =>
            rw [hname] at h
            obtain ⟨ending, hending, hbase⟩ := exists_ending hname
            exact .bare hother hending hbase ((get?_texts_registered calls).1 h)
      · rintro (h | ⟨-, hending, hname, h⟩)
        · exact absurd h (hother text)
        · rw [templateName?_eq_some_iff.2 ⟨_, hending, hname⟩]
          exact (get?_texts_registered calls).2 h

theorem directories_registered (calls : List Registration) :
    (registered prunes limit calls).directories = directoriesOf calls := by
  induction calls using List.reverseRecOn with
  | nil => rfl
  | append_singleton calls call ih =>
      rw [registered_concat, directoriesOf, List.filterMap_append, ← directoriesOf, ← ih]
      cases call with
      | text name text => simp [register, addText]
      | directory files path =>
          by_cases hdirectory : files.isDirectory path = true <;>
            simp [register, addDirectory, hdirectory]

/-- The first file that stands for a name in one directory. -/
def fileIn? (files : FileTree) (name directory : String) : Option String :=
  ((candidates name).map (FileTree.join directory)).find? files.isFile

theorem fileIn?_of_ending (hname : (templateName? name).isSome = true) :
    fileIn? files name directory = if files.isFile (FileTree.join directory name) then
      some (FileTree.join directory name) else none := by
  rw [fileIn?, candidates, if_pos hname, List.map_singleton, List.find?_singleton]

theorem fileIn?_of_bare (hname : templateName? name = none) :
    fileIn? files name directory =
      if files.isFile (FileTree.join directory (name ++ ".yaml")) then
        some (FileTree.join directory (name ++ ".yaml"))
      else if files.isFile (FileTree.join directory (name ++ ".yml")) then
        some (FileTree.join directory (name ++ ".yml"))
      else none := by
  rw [fileIn?, candidates, hname, endings]
  show List.find? _ [_, _] = _
  rw [List.find?_cons, List.find?_singleton]
  split <;> simp [*]

theorem fileIn?_eq_some_iff :
    fileIn? files name directory = some path ↔ StandsFor files directory name path := by
  cases hname : templateName? name with
  | some base =>
      obtain ⟨ending, hending, hbase⟩ := exists_ending hname
      rw [fileIn?_of_ending (by rw [hname]; rfl)]
      constructor
      · intro h
        obtain ⟨hfile, ⟨⟩⟩ := Option.ite_none_right_eq_some.1 h
        exact .whole hending hbase hfile
      · rintro (⟨-, -, hfile⟩ | ⟨hbare, -⟩ | ⟨hbare, -, -⟩)
        · exact if_pos hfile
        · exact absurd hbase (hbare base ending hending)
        · exact absurd hbase (hbare base ending hending)
  | none =>
      have hbare := templateName?_eq_none_iff.1 hname
      rw [fileIn?_of_bare hname]
      constructor
      · intro h
        by_cases hyaml : files.isFile (FileTree.join directory (name ++ ".yaml")) = true
        · rw [if_pos hyaml] at h
          cases h
          exact .yaml hbare hyaml
        · rw [if_neg hyaml] at h
          obtain ⟨hyml, ⟨⟩⟩ := Option.ite_none_right_eq_some.1 h
          exact .yml hbare (Bool.eq_false_iff.2 hyaml) hyml
      · rintro (⟨hending, hbase, -⟩ | ⟨-, hyaml⟩ | ⟨-, hyaml, hyml⟩)
        · exact absurd hbase (hbare _ _ hending)
        · exact if_pos hyaml
        · rw [if_neg (Bool.eq_false_iff.1 hyaml), if_pos hyml]

theorem file?_registered :
    (registered prunes limit calls).file? files name = some path ↔
      HasFile calls files name path := by
  rw [file?, List.find?_flatMap, directories_registered, List.findSome?_eq_some_iff]
  refine exists_congr fun before => exists_congr fun directory => exists_congr fun after => ?_
  refine and_congr_right fun _ => ?_
  rw [and_comm]
  refine and_congr (forall₂_congr fun earlier _ => ?_) fileIn?_eq_some_iff
  exact eq_none_iff_of_some fun path => fileIn?_eq_some_iff

theorem answers_get_registered :
    Answers calls files name ((registered prunes limit calls).get files name) := by
  rw [get]
  cases htext : (registered prunes limit calls).text? name with
  | some text => exact .text (text?_registered.1 htext)
  | none =>
      have hnone := (eq_none_iff_of_some fun text => text?_registered).1 htext
      cases hfile : (registered prunes limit calls).file? files name with
      | none => exact .missing hnone ((eq_none_iff_of_some fun path => file?_registered).1 hfile)
      | some path =>
          have hpath := file?_registered.1 hfile
          cases hread : files.readText? path with
          | some text =>
              simp only [hread]
              exact .file hnone hpath hread
          | none =>
              simp only [hread]
              exact .unreadable hnone hpath hread

theorem get_registered_of_answers {answer : Except Error String}
    (h : Answers calls files name answer) :
    (registered prunes limit calls).get files name = answer := by
  rw [get]
  cases h with
  | text h => rw [text?_registered.2 h]
  | file hnone hpath hread =>
      rw [(eq_none_iff_of_some fun text => text?_registered).2 hnone, file?_registered.2 hpath]
      simp only [hread]
  | unreadable hnone hpath hread =>
      rw [(eq_none_iff_of_some fun text => text?_registered).2 hnone, file?_registered.2 hpath]
      simp only [hread]
  | missing hnone hnofile =>
      rw [(eq_none_iff_of_some fun text => text?_registered).2 hnone,
        (eq_none_iff_of_some fun path => file?_registered).2 hnofile]

theorem file?_of_directory (h : (library.file? files name).isSome = true) (path : String) :
    ({ library with directories := library.directories ++ [path] } : Library).file? files name =
      library.file? files name := by
  obtain ⟨found, hfound⟩ := Option.isSome_iff_exists.1 h
  rw [hfound]
  rw [file?] at hfound ⊢
  rw [List.flatMap_append, List.find?_append, hfound]
  rfl

/-- A name that leads somewhere keeps its answer. -/
theorem get_register_directory (h : library.Resolves files name) (earlier : FileTree)
    (path : String) :
    (library.register (.directory earlier path)).get files name = library.get files name := by
  rw [register, addDirectory]
  by_cases hdirectory : earlier.isDirectory path = true
  · rw [if_pos hdirectory]
    show get { library with directories := library.directories ++ [path] } files name = _
    have htexts : ({ library with directories := library.directories ++ [path] } : Library).text?
        name = library.text? name := rfl
    rw [get, get, htexts]
    cases htext : library.text? name with
    | some text => rfl
    | none =>
        obtain hsome | hsome := resolves_iff.1 h
        · rw [htext] at hsome
          cases hsome
        · rw [file?_of_directory hsome]
  · rw [if_neg hdirectory]

theorem get_register_text {own : String} (hown : own ≠ name)
    (hbare : ∀ ending ∈ endings, own ++ ending ≠ name) (text : String) :
    (library.register (.text own text)).get files name = library.get files name := by
  have hbase : baseName name ≠ own := by
    rw [baseName]
    cases hname : templateName? name with
    | none => exact Ne.symm hown
    | some base =>
        rintro rfl
        obtain ⟨ending, hending, hbase⟩ := exists_ending hname
        exact hbare ending hending hbase
  have htext : (library.register (.text own text)).text? name = library.text? name := by
    rw [register, addText, text?, text?, Dict.get?_insert, if_neg (Ne.symm hown),
      Dict.get?_insert, if_neg hbase]
  have hfile : (library.register (.text own text)).file? files name = library.file? files name :=
    rfl
  rw [get, get, htext, hfile]

/-- **A library answers by its history.** So a directory that is registered, whether it is there or not,
changes no answer to a name that led somewhere, and a text changes none but to its own name and to
that with an ending. -/
theorem get_registered (prunes : Bool) (limit : Nat) (calls : List Registration)
    (files : FileTree) (name : String) :
    let library := registered prunes limit calls
    (∀ answer, library.get files name = answer ↔ Answers calls files name answer) ∧
      (library.Resolves files name → ∀ earlier path,
        (library.register (.directory earlier path)).get files name = library.get files name) ∧
      ∀ own text, own ≠ name → (∀ ending ∈ endings, own ++ ending ≠ name) →
        (library.register (.text own text)).get files name = library.get files name := by
  refine ⟨fun answer => ⟨?_, get_registered_of_answers⟩, get_register_directory,
    fun own text hown hbare => get_register_text hown hbare text⟩
  rintro rfl
  exact answers_get_registered

/-- The first directory has the later ending. -/
def twoShelves : FileTree where
  entries := [(["first", "x.yml"], .text "first x"), (["second", "x.yaml"], .text "second x"),
    (["second", "y.yaml"], .text "second y")]

def shelving : List Registration :=
  [.text "z.yml" "whole", .directory twoShelves "first", .directory {} "first",
    .directory twoShelves "second", .text "z" "bare"]

theorem get_registered_shelving :
    let library := registered true 10 shelving
    library.get twoShelves "x" = .ok "first x" ∧
      Answers shelving twoShelves "x" (.ok "first x") ∧
      library.Resolves twoShelves "x" ∧
      (library.register (.directory twoShelves ".")).get twoShelves "x" = .ok "first x" ∧
      ("z" ≠ "x" ∧ ∀ ending ∈ endings, "z" ++ ending ≠ "x") ∧
      (library.register (.text "z" "later")).get twoShelves "x" = .ok "first x" := by
  intro library
  have hget : library.get twoShelves "x" = .ok "first x" := rfl
  have hresolves : library.Resolves twoShelves "x" := by
    rw [Resolves, hget]
    rintro ⟨⟩
  have hother : ∀ ending ∈ endings, "z" ++ ending ≠ "x" := by decide
  obtain ⟨hanswers, hdirectory, htext⟩ := get_registered true 10 shelving twoShelves "x"
  refine ⟨hget, (hanswers _).1 hget, hresolves, ?_, ⟨by decide, hother⟩, ?_⟩
  · exact (hdirectory hresolves twoShelves ".").trans hget
  · exact (htext "z" "later" (by decide) hother).trans hget

/-- The later text is that of the shorter name, which the whole name comes before. -/
example : (registered true 10 shelving).get twoShelves "z.yml" = .ok "whole" ∧
    (registered true 10 shelving).get twoShelves "z.yaml" = .ok "bare" :=
  ⟨rfl, rfl⟩

end Library

end PromptSheet
