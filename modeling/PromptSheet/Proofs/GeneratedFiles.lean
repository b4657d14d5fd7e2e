import Mathlib.Data.Option.Basic
import PromptSheet.CommandLine.Report
import PromptSheet.Proofs.SpelledSwitches
import PromptSheet.Proofs.Trimming
import PromptSheet.Proofs.WrittenFiles

/-!
# Generating into a file

With an output path, the program writes the one file and nothing else, and says nothing on its output;
or it fails and writes nothing. What it writes is what it shows without the path.
-/

namespace PromptSheet

/-- All that was asked for but what one switch said. -/
def GenerateOptions.without (options : GenerateOptions) (name : String) : GenerateOptions :=
  { options with
    key := if "key" = name then none else options.key
    statePath := if "state" = name then none else options.statePath
    outputPath := if "output" = name then none else options.outputPath }

namespace CommandLine

variable {environment : Option String} {arguments front spelled back : List String}
  {catalog : Option String} {options : GenerateOptions} {switch : Switch} {operand : String}
  {before after : Given} {rest : List String}

def generateSwitches : List Switch :=
  generateForm.switches ++ generalSwitches

/-- No other form asks for a document. -/
theorem eq_generateForm {form : Form} {given : Given} (hform : form ∈ forms)
    (h : form.command? given = some (.generate options)) : form = generateForm := by
  simp only [forms, List.mem_cons, List.not_mem_nil, or_false] at hform
  rcases hform with rfl | rfl | rfl | rfl | rfl
  · rfl
  · obtain ⟨key, -, hcommand⟩ := Option.map_eq_some_iff.1 h
    cases hcommand
  · cases h
  · cases h
  · obtain ⟨-, hrender⟩ := Option.ite_none_right_eq_some.1 h
    obtain ⟨name, -, hcommand⟩ := Option.map_eq_some_iff.1 hrender
    cases hcommand

/-- The parts that the command line of a document is made of. -/
structure Generates (environment : Option String) (arguments : List String)
    (catalog : Option String) (options : GenerateOptions) (before after : Given)
    (rest : List String) : Prop where
  command : gather {} {} (items programSwitches true arguments) =
    .command (some before) generateForm.name rest
  all : gather generateForm.places {} (items generateSwitches false rest) = .all after
  options : generateForm.command? after = some (.generate options)
  catalog : catalog? (before.operand? "catalog") (after.operand? "catalog") environment =
    some catalog

theorem Generates.read?_eq (h : Generates environment arguments catalog options before after rest) :
    read? environment arguments = some ⟨catalog, .generate options⟩ := by
  have hform : forms.find? (fun form => form.name == generateForm.name) = some generateForm := rfl
  have hall : gather generateForm.places {}
    (items (generateForm.switches ++ generalSwitches) false rest) = .all after := h.all
  have hhelp : ¬(generateForm.name == "help") = true := by decide
  rw [read?, h.command]
  simp only [if_neg hhelp, hform, Option.bind_some, hall, h.options, Option.bind_eq_bind, h.catalog]
  rfl

theorem exists_generates (h : read? environment arguments = some ⟨catalog, .generate options⟩) :
    ∃ before after rest,
      Generates environment arguments catalog options before after rest := by
  rw [read?] at h
  split at h
  · cases h
  · cases h
  · cases h
  · cases h
  · next before name rest hcommand =>
      split at h
      · split at h <;> cases h
      · obtain ⟨form, hfind, h⟩ := Option.bind_eq_some_iff.1 h
        have hname : form.name = name := by simpa using List.find?_some hfind
        split at h
        · next after hall =>
            simp only [Option.bind_eq_bind, Option.bind_eq_some_iff] at h
            obtain ⟨before, rfl, command, hoptions, given, hcatalog, hinvocation⟩ := h
            cases hinvocation
            obtain rfl := eq_generateForm (List.mem_of_find?_eq_some hfind) hoptions
            subst hname
            exact ⟨before, after, rest, hcommand, hall, hoptions, hcatalog⟩
        · cases h
        · cases h

/-- The same arguments, and a switch with its operand at some place among them. -/
def Adds (switch : Switch) (operand : String) (others arguments : List String) : Prop :=
  ∃ front spelled back, Spelling switch operand spelled ∧ others = front ++ back ∧
    arguments = front ++ spelled ++ back

/-- No kind has a name that starts with a dash, nor with what a dash stands for. -/
theorem ofName?_of_isSwitch {argument : String} (h : isSwitch argument = true) :
    Kind.ofName? argument = none := by
  rw [isSwitch, Bool.and_eq_true, beq_iff_eq] at h
  obtain ⟨rest, hargument⟩ := List.head?_eq_some_iff.1 h.2
  obtain ⟨trimmed, htrimmed⟩ : ∃ trimmed, Text.trim argument.toList = '-' :: trimmed := by
    have hstart : Text.trimStart argument.toList = argument.toList := by
      rw [hargument]
      exact List.dropWhile_cons_of_neg (by decide)
    obtain ⟨blanks, hblanks⟩ := Text.exists_trimEnd_append argument.toList
    rw [Text.trim, hstart]
    cases htrim : Text.trimEnd argument.toList with
    | nil =>
        have hall := Text.trim_eq_nil_iff.1 (by rw [Text.trim, hstart, htrim])
        exact absurd (hall '-' (by rw [hargument]; exact List.mem_cons_self)) (by decide)
    | cons c trimmed =>
        rw [htrim, hargument] at hblanks
        injection hblanks with hc
        exact ⟨trimmed, by rw [hc]⟩
  have hname : ∀ kind : Kind, kind.name.toList.head? ≠ some '_' := by
    intro kind
    cases kind <;> decide
  rw [Kind.ofName?, List.find?_eq_none]
  intro kind _ hkind
  apply hname kind
  rw [beq_iff_eq.1 hkind, htrimmed, String.toList_ofList]
  rfl

theorem repeats_of_mem_generateSwitches :
    ∀ switch ∈ generateSwitches, switch.repeats = false := by
  decide

theorem command?_without {given : Given} {name : String}
    (h : generateForm.command? given = some (.generate options)) (hname : "prune" ≠ name) :
    generateForm.command? (given.without name) = some (.generate (options.without name)) := by
  obtain ⟨kind, hkind, hcommand⟩ := Option.map_eq_some_iff.1 h
  cases hcommand
  refine Option.map_eq_some_iff.2 ⟨kind, hkind, ?_⟩
  rw [Given.operand?_without, Given.operand?_without, Given.operand?_without,
    given.has_without_of_ne hname]
  rfl

theorem operands_of_command? {given : Given}
    (h : generateForm.command? given = some (.generate options)) :
    options.outputPath = given.operand? "output" ∧ options.key = given.operand? "key" := by
  obtain ⟨kind, -, hcommand⟩ := Option.map_eq_some_iff.1 h
  cases hcommand
  exact ⟨rfl, rfl⟩

/-- Without one of its own switches the command line of a document is one as well, of the options
that are left. -/
theorem read?_remove (hspelled : Spelling switch operand spelled)
    (hspell : switch.IsSpellable) (hknown : switch.IsKnown generateSwitches)
    (hunknown : switch.IsUnknown programSwitches)
    (hname : "catalog" ≠ switch.name ∧ "prune" ≠ switch.name)
    (h : read? environment (front ++ spelled ++ back) = some ⟨catalog, .generate options⟩) :
    (∃ given, generateForm.command? given = some (.generate options) ∧
        given.operand? switch.name = some operand) ∧
      read? environment (front ++ back) =
        some ⟨catalog, .generate (options.without switch.name)⟩ := by
  obtain ⟨before, after, rest, hgenerates⟩ := exists_generates h
  obtain ⟨argument, tail, rfl, hread⟩ := hspelled.exists_isRead hspell
  obtain ⟨between, rfl, hcommand⟩ := gather_command_remove hread hunknown hgenerates.command
  have hword : generateForm.places.accepts argument = false := by
    simp only [generateForm, ofName?_of_isSwitch hread.isSwitch, Option.isSome_none]
  obtain ⟨hoperand, hall⟩ := gather_all_remove hread hknown repeats_of_mem_generateSwitches hword
    hgenerates.all
  have hremoved : Generates environment (front ++ back) catalog (options.without switch.name) before
      (after.without switch.name) (between ++ back) := by
    refine ⟨hcommand, hall, command?_without hgenerates.options hname.2, ?_⟩
    rw [Given.operand?_without, if_neg hname.1]
    exact hgenerates.catalog
  exact ⟨⟨after, hgenerates.options, hoperand⟩, hremoved.read?_eq⟩

def outputSwitch : Switch :=
  { name := "output", letter := some 'o', operand := .path }

def keySwitch : Switch :=
  { name := "key", operand := .text }

theorem read?_remove_output {path : String} (hspelled : Spelling outputSwitch path spelled)
    (h : read? environment (front ++ spelled ++ back) = some ⟨catalog, .generate options⟩) :
    options.outputPath = some path ∧
      read? environment (front ++ back) =
        some ⟨catalog, .generate { options with outputPath := none }⟩ := by
  have hspell : outputSwitch.IsSpellable := ⟨by decide, by decide, by decide⟩
  have hknown : outputSwitch.IsKnown generateSwitches := by
    refine ⟨rfl, ?_, by decide⟩
    rintro c ⟨⟩
    rfl
  have hunknown : outputSwitch.IsUnknown programSwitches := by
    refine ⟨rfl, ?_⟩
    rintro c ⟨⟩
    rfl
  obtain ⟨⟨given, hoptions, hoperand⟩, hread⟩ :=
    read?_remove hspelled hspell hknown hunknown (by decide) h
  exact ⟨(operands_of_command? hoptions).1.trans hoperand, hread⟩

theorem read?_remove_key {key : String} (hspelled : Spelling keySwitch key spelled)
    (h : read? environment (front ++ spelled ++ back) = some ⟨catalog, .generate options⟩) :
    options.key = some key ∧
      read? environment (front ++ back) = some ⟨catalog, .generate { options with key := none }⟩ := by
  have hspell : keySwitch.IsSpellable := ⟨by decide, by decide, by decide⟩
  have hknown : keySwitch.IsKnown generateSwitches := ⟨rfl, by rintro c ⟨⟩, by decide⟩
  have hunknown : keySwitch.IsUnknown programSwitches := ⟨rfl, by rintro c ⟨⟩⟩
  obtain ⟨⟨given, hoptions, hoperand⟩, hread⟩ :=
    read?_remove hspelled hspell hknown hunknown (by decide) h
  exact ⟨(operands_of_command? hoptions).2.trans hoperand, hread⟩

end CommandLine

variable {files : FileTree} {catalog : Option String} {options : GenerateOptions} {path : String}

/-- The state that a document is made from. -/
def GenerateOptions.state (options : GenerateOptions) (files : FileTree) : Except Failure State :=
  (options.statePath.map (readState files)).getD (.ok {})

namespace Answer

def documentResult (files : FileTree) (catalog : Option String) (options : GenerateOptions)
    (state : State) : Except Error String :=
  let key := options.key.getD (options.kind.selectionKey state)
  ((engine catalog options.prunes).generateForKey files options.kind key state).1.result

theorem ofGenerate_of_state_error {failure : Failure}
    (h : options.state files = .error failure) (catalog : Option String) :
    ofGenerate files catalog options = .error failure := by
  rw [ofGenerate, ← GenerateOptions.state, h]
  rfl

theorem ofGenerate_of_state_ok {state : State} (h : options.state files = .ok state)
    (catalog : Option String) :
    ofGenerate files catalog options =
      match documentResult files catalog options state with
      | .ok text => .ok (.document text options.outputPath)
      | .error e => .error (.generate options.kind e) := by
  rw [ofGenerate, ← GenerateOptions.state, h]
  rfl

/-- Whether a document can be made and what it says has nothing to do with where it goes. -/
theorem ofGenerate_cases (files : FileTree) (catalog : Option String) (options : GenerateOptions) :
    (∃ failure, ∀ path,
        ofGenerate files catalog { options with outputPath := path } = .error failure) ∨
      ∃ text, ∀ path,
        ofGenerate files catalog { options with outputPath := path } = .ok (.document text path) := by
  have hread : ∀ path, { options with outputPath := path }.state files = options.state files :=
    fun _ => rfl
  cases hstate : options.state files with
  | error failure =>
      refine .inl ⟨failure, fun path => ?_⟩
      exact ofGenerate_of_state_error ((hread path).trans hstate) catalog
  | ok state =>
      have hresult : ∀ path, documentResult files catalog { options with outputPath := path } state =
          documentResult files catalog options state := fun _ => rfl
      cases hdocument : documentResult files catalog options state with
      | error e =>
          refine .inl ⟨.generate options.kind e, fun path => ?_⟩
          rw [ofGenerate_of_state_ok ((hread path).trans hstate), hresult, hdocument]
      | ok text =>
          refine .inr ⟨text, fun path => ?_⟩
          rw [ofGenerate_of_state_ok ((hread path).trans hstate), hresult, hdocument]

/-- No key is the key that the state selects. If there is no state, no key makes up for it. -/
theorem ofGenerate_key {key : String} (catalog : Option String)
    (hkey : ∀ state, options.state files = .ok state → key = options.kind.selectionKey state) :
    ofGenerate files catalog { options with key := some key } =
      ofGenerate files catalog { options with key := none } := by
  have hread : ∀ key, { options with key := key }.state files = options.state files :=
    fun _ => rfl
  cases hstate : options.state files with
  | error failure =>
      rw [ofGenerate_of_state_error ((hread (some key)).trans hstate),
        ofGenerate_of_state_error ((hread none).trans hstate)]
  | ok state =>
      rw [ofGenerate_of_state_ok ((hread (some key)).trans hstate),
        ofGenerate_of_state_ok ((hread none).trans hstate), hkey state hstate]
      rfl

end Answer

namespace Invocation

theorem run_generate (files : FileTree) (catalog : Option String) (options : GenerateOptions) :
    run files ⟨catalog, .generate options⟩ =
      Ending.run files (match Answer.ofGenerate files catalog options with
        | .error failure => .done (.ofFailure failure)
        | .ok answer => answer.ending) :=
  rfl

/-- All that can come of a document that goes into a file, against the same document shown. -/
theorem run_generate_cases (files : FileTree) (catalog : Option String) (options : GenerateOptions)
    (path : String) :
    let ran := run files ⟨catalog, .generate { options with outputPath := some path }⟩
    let shown := run files ⟨catalog, .generate { options with outputPath := none }⟩
    (∃ failure, ran = (.ofFailure failure, files)) ∨
      ∃ text after, files.write? path (Report.ofLine text) = some after ∧ ran = ({}, after) ∧
        shown = ({ stdout := Report.ofLine text }, files) := by
  intro ran shown
  obtain ⟨failure, hanswer⟩ | ⟨text, hanswer⟩ := Answer.ofGenerate_cases files catalog options
  · refine .inl ⟨failure, ?_⟩
    rw [show ran = _ from run_generate .., hanswer]
    rfl
  · have hran : ran = Ending.run files (.write path (Report.ofLine text)) := by
      rw [show ran = _ from run_generate .., hanswer]
      rfl
    have hshown : shown = ({ stdout := Report.ofLine text }, files) := by
      rw [show shown = _ from run_generate .., hanswer]
      rfl
    cases hwrite : files.write? path (Report.ofLine text) with
    | none =>
        refine .inl ⟨.unwritable path, ?_⟩
        rw [hran, Ending.run, hwrite]
    | some after =>
        refine .inr ⟨text, after, hwrite, ?_, hshown⟩
        rw [hran, Ending.run, hwrite]

theorem run_generate_key {key : String} (catalog : Option String)
    (hkey : ∀ state, options.state files = .ok state → key = options.kind.selectionKey state) :
    run files ⟨catalog, .generate { options with key := some key }⟩ =
      run files ⟨catalog, .generate { options with key := none }⟩ := by
  rw [run_generate, run_generate, Answer.ofGenerate_key catalog hkey]

end Invocation

namespace CommandLine

theorem run_of_read? {environment : Option String} {arguments : List String}
    {invocation : Invocation} (h : read? environment arguments = some invocation)
    (files : FileTree) : run files environment arguments = invocation.run files := by
  rw [run, h]

section Run

variable {environment : Option String} {shown written plain keyed : List String} {key : String}

/-- Either the program fails and does nothing, or it writes the file and nothing fails without it. -/
theorem run_output_cases (files : FileTree) (hwritten : Adds outputSwitch path shown written)
    (hgenerate : ∀ invocation ∈ read? environment written,
      ∃ options, invocation.command = .generate options) :
    (∃ code stderr, code ≠ 0 ∧ run files environment written = ({ code, stderr }, files)) ∨
      ∃ text after, files.write? path text = some after ∧
        run files environment written = ({}, after) ∧
        run files environment shown = ({ stdout := text }, files) := by
  obtain ⟨front, spelled, back, hspelled, rfl, rfl⟩ := hwritten
  cases hread : read? environment (front ++ spelled ++ back) with
  | none =>
      refine .inl ⟨2, "", by decide, ?_⟩
      rw [run, hread]
      rfl
  | some invocation =>
      obtain ⟨catalog, command⟩ := invocation
      obtain ⟨options, hcommand⟩ := hgenerate _ hread
      obtain rfl : command = .generate options := hcommand
      obtain ⟨hpath, hshown⟩ := read?_remove_output hspelled hread
      have hoptions : { options with outputPath := some path } = options := by rw [← hpath]
      rw [run_of_read? hread, run_of_read? hshown]
      obtain ⟨failure, hran⟩ | ⟨text, after, hwrite, hran, hprinted⟩ :=
        Invocation.run_generate_cases files catalog options path
      · rw [hoptions] at hran
        exact .inl ⟨1, _, by decide, hran⟩
      · rw [hoptions] at hran
        exact .inr ⟨_, after, hwrite, hran, hprinted⟩

theorem run_remove_key (hkeyed : Adds keySwitch key plain keyed)
    (hread : read? environment keyed = some ⟨catalog, .generate options⟩)
    (hkey : ∀ state, options.state files = .ok state → key = options.kind.selectionKey state) :
    run files environment plain = run files environment keyed := by
  obtain ⟨front, spelled, back, hspelled, rfl, rfl⟩ := hkeyed
  obtain ⟨hgiven, hplain⟩ := read?_remove_key hspelled hread
  have hoptions : { options with key := some key } = options := by rw [← hgiven]
  rw [run_of_read? hread, run_of_read? hplain, ← Invocation.run_generate_key catalog hkey, hoptions]

end Run

/-- **A document goes into its file or nowhere.** A command that fails leaves all files as they are,
and one that succeeds writes into the one file what it shows when no file is given, whatever was in
that file before. To leave the key out is to give the key that the state selects. -/
theorem run_generate_output (files : FileTree) (environment : Option String)
    {shown written : List String} {path : String} (hwritten : Adds outputSwitch path shown written)
    (hgenerate : ∀ invocation ∈ read? environment written,
      ∃ options, invocation.command = .generate options) :
    let ran := run files environment written
    let printed := run files environment shown
    (ran.1.code ≠ 0 → ran.2 = files ∧ ran.1.stdout = "") ∧
      (ran.1.code = 0 → printed.1.code = 0 ∧ printed.2 = files ∧ ran.1.stdout = "" ∧
        files.OnlyWritten ran.2 path printed.1.stdout) ∧
      ∀ key plain keyed catalog options, Adds keySwitch key plain keyed →
        read? environment keyed = some ⟨catalog, .generate options⟩ →
        (∀ state, options.state files = .ok state → key = options.kind.selectionKey state) →
        run files environment plain = run files environment keyed := by
  intro ran printed
  have hcases := run_output_cases files hwritten hgenerate
  refine ⟨fun hfailed => ?_, fun hdone => ?_, fun key plain keyed catalog options => run_remove_key⟩
  · obtain ⟨code, stderr, -, hran⟩ | ⟨text, after, -, hran, -⟩ := hcases
    · exact ⟨congrArg Prod.snd hran, congrArg (Report.stdout ∘ Prod.fst) hran⟩
    · exact absurd (congrArg (Report.code ∘ Prod.fst) hran) hfailed
  · obtain ⟨code, stderr, hcode, hran⟩ | ⟨text, after, hwrite, hran, hprinted⟩ := hcases
    · have hfailed : ran.1.code = code := congrArg (Report.code ∘ Prod.fst) hran
      exact absurd (hfailed.symm.trans hdone) hcode
    · have hafter : ran.2 = after := congrArg Prod.snd hran
      have htext : printed.1.stdout = text := congrArg (Report.stdout ∘ Prod.fst) hprinted
      refine ⟨congrArg (Report.code ∘ Prod.fst) hprinted, congrArg Prod.snd hprinted,
        congrArg (Report.stdout ∘ Prod.fst) hran, ?_⟩
      rw [hafter, htext]
      exact FileTree.onlyWritten_of_write? hwrite

def bodyMaster : String := "common_sections: \x7bbody: \x7btemplate: n\x7d\x7d"

def bodySelection : String := "selection_map: \x7bface_sheet: \x7bsections: [body]\x7d\x7d"

/-- The directory of a catalog. -/
def bodyFiles : FileTree :=
  (FileTree.add {} "MasterTemplate.yaml" (.text bodyMaster)).add "SelectionMap.yaml"
    (.text bodySelection)

theorem documentResult_bodyFiles (outputPath : Option String) (state : State) :
    Answer.documentResult bodyFiles (some ".") { kind := .faceSheet, outputPath } state =
      .ok "n" := by
  have hmaster : Catalog.readFile bodyFiles "./MasterTemplate.yaml" = .ok bodyMaster := by rfl
  have hselection : Catalog.readFile bodyFiles "./SelectionMap.yaml" = .ok bodySelection := by rfl
  have hfound : (Catalog.read bodyMaster bodySelection).toOption.map (fun catalog =>
      (catalog.sectionsFor? "face_sheet",
        (catalog.section? "face_sheet" "body").map Section.template)) =
      some (some ["body"], some "n") := by decide +kernel
  have hparse : Template.parse "n" = .ok [.text "n"] := by decide +kernel
  cases hread : Catalog.read bodyMaster bodySelection with
  | error e =>
      rw [hread] at hfound
      cases hfound
  | ok catalog =>
      rw [hread] at hfound
      obtain ⟨hsections, hsection⟩ : catalog.sectionsFor? "face_sheet" = some ["body"] ∧
          (catalog.section? "face_sheet" "body").map Section.template = some "n" := by
        simpa [Except.toOption] using hfound
      obtain ⟨body, hbody, htemplate⟩ := Option.map_eq_some_iff.1 hsection
      have hsource : Catalog.Source.directory "." =
          .files "./MasterTemplate.yaml" "./SelectionMap.yaml" := by rfl
      have hload : Catalog.load bodyFiles (.directory ".") = .ok catalog := by
        rw [hsource, Catalog.load, hmaster]
        simp only [bind, Except.bind, hselection]
        exact hread
      have hcatalog : (Answer.engine (some ".") false).catalog bodyFiles = .ok catalog := hload
      have hrendered : ∀ store,
          catalog.renderSection {} "face_sheet" "body" store = .ofValue "n" := by
        intro store
        simp only [Catalog.renderSection, hbody, renderTemplate, Template.Renderer.renderText,
          htemplate, hparse]
        rfl
      have hassembled : ∀ store,
          (catalog.assemble {} "face_sheet" "face_sheet" store).result = .ok "n" := by
        intro store
        simp only [Catalog.assemble, hsections, Catalog.renderSections, hbody, hrendered,
          Option.isSome_some, if_true]
        rfl
      have hregistry : (Answer.engine (some ".") false).registry = .builtin := rfl
      have hdocument := Engine.generateForKey_of_builtin hregistry bodyFiles .faceSheet "face_sheet"
        state
      rw [Engine.assemble, Engine.consult_of_ok hcatalog] at hdocument
      rw [Answer.documentResult]
      exact (congrArg (·.1.result) hdocument).trans (hassembled (Kind.faceSheet.bind state))

def showing : List String :=
  ["--catalog", ".", "generate", "face_sheet"]

/-- The document goes over a file of the catalog that it is made from. -/
theorem run_generate_output_bodyFiles :
    let written := showing ++ ["--output", "SelectionMap.yaml"]
    let keyed := showing ++ ["--key", "face_sheet"]
    Adds outputSwitch "SelectionMap.yaml" showing written ∧
      (∀ invocation ∈ read? none written, ∃ options, invocation.command = .generate options) ∧
      (run bodyFiles none written).1.code = 0 ∧ (run bodyFiles none written).1.stdout = "" ∧
      (run bodyFiles none written).2.readText? "SelectionMap.yaml" = some "n\n" ∧
      run bodyFiles none showing = run bodyFiles none keyed := by
  intro written keyed
  have hadds : ∀ switch operand spelled, Spelling switch operand spelled →
      Adds switch operand showing (showing ++ spelled) := by
    intro switch operand spelled hspelled
    exact ⟨showing, spelled, [], hspelled, by simp, by simp⟩
  have hread : read? none written =
      some ⟨some ".", .generate { kind := .faceSheet, outputPath := some "SelectionMap.yaml" }⟩ := by
    rfl
  have hshowing : read? none showing = some ⟨some ".", .generate { kind := .faceSheet }⟩ := by rfl
  have hreadKey : read? none keyed =
      some ⟨some ".", .generate { kind := .faceSheet, key := some "face_sheet" }⟩ := by
    rfl
  have hwritten : Adds outputSwitch "SelectionMap.yaml" showing written := hadds _ _ _ .long
  have hkeyed : Adds keySwitch "face_sheet" showing keyed := hadds _ _ _ .long
  have hgenerate : ∀ invocation ∈ read? none written,
      ∃ options, invocation.command = .generate options := by
    intro invocation hinvocation
    rw [hread] at hinvocation
    cases hinvocation
    exact ⟨_, rfl⟩
  obtain ⟨-, hdone, hkey⟩ := run_generate_output bodyFiles none hwritten hgenerate
  have hanswer : ∀ outputPath, Answer.ofGenerate bodyFiles (some ".")
      { kind := .faceSheet, outputPath } = .ok (.document "n" outputPath) := by
    intro outputPath
    rw [Answer.ofGenerate_of_state_ok rfl, documentResult_bodyFiles outputPath {}]
  have hprinted : (run bodyFiles none showing).1.stdout = "n\n" := by
    rw [run_of_read? hshowing, Invocation.run_generate, hanswer]
    rfl
  have hcode : (run bodyFiles none written).1.code = 0 := by
    rw [run_of_read? hread, Invocation.run_generate, hanswer]
    rfl
  obtain ⟨-, -, hstdout, honly⟩ := hdone hcode
  have htext := honly.holds
  rw [hprinted] at htext
  have hselected : ∀ state, Kind.faceSheet.selectionKey state = "face_sheet" := fun _ => rfl
  refine ⟨hwritten, hgenerate, hcode, hstdout, htext, ?_⟩
  exact hkey "face_sheet" showing keyed _ _ hkeyed hreadKey fun state _ => (hselected state).symm

end CommandLine

end PromptSheet
