import PromptSheet.Engine

/-!
# Histories of an engine

Operations of one engine, with changes of the files in between. Every operation consults the catalog
once and before anything else. So as long as no catalog can be loaded, each operation fails for the
reason of its own time and leaves the engine as it was; and from the first operation that finds one,
the engine has that catalog, whatever becomes of the files.
-/

namespace PromptSheet

/-- What an operation answers if nothing fails. -/
inductive Reply where
  | document (text : String)
  | sections (names : List String)
  | issues (issues : List Issue)

inductive Operation : Type 1 where
  | generate (kind : Kind) (state : State)
  | generateForKey (kind : Kind) (key : String) (state : State)
  | generateWith {σ : Type} (registry : Registry σ) (outputType key : String) (state : σ)
  | assemble (outputType key : String) (store : Store)
  | renderSection (outputType name : String) (store : Store)
  | sections (key : String)
  | issues

namespace Operation

abbrev Answer := Logged Error Reply

def answerBy {α : Type} (reply : α → Reply) (done : Logged Error α × Engine) : Answer × Engine :=
  (done.1.map reply, done.2)

def run (engine : Engine) (files : FileTree) : Operation → Answer × Engine
  | generate kind state => answerBy .document (engine.generate files kind state)
  | generateForKey kind key state =>
    answerBy .document (engine.generateForKey files kind key state)
  | generateWith registry outputType key state =>
    answerBy .document (engine.generateWith files registry outputType key state)
  | assemble outputType key store =>
    answerBy .document (engine.assemble files outputType key store)
  | renderSection outputType name store =>
    answerBy .document (engine.renderSection files outputType name store)
  | sections key => answerBy .sections (engine.sections files key)
  | issues => answerBy .issues (engine.issues files)

end Operation

/-- What happens to an engine and the files around it. -/
inductive Event : Type 1 where
  | call (operation : Operation)
  | change (edit : FileTree → FileTree)

/-- Writing a file. Where none can be written, the files stay as they are. -/
def Event.write (path content : String) : Event :=
  .change fun files => (files.write? path content).getD files

/-- An operation that was done: the files at its time, its answer and the engine after it. -/
structure Step where
  files : FileTree
  operation : Operation
  answer : Operation.Answer
  after : Engine

def Operation.step (engine : Engine) (files : FileTree) (operation : Operation) : Step :=
  { files, operation, answer := (operation.run engine files).1
    after := (operation.run engine files).2 }

def Engine.run (engine : Engine) (files : FileTree) : List Event → List Step
  | [] => []
  | .call operation :: events =>
    let step := operation.step engine files
    step :: step.after.run files events
  | .change edit :: events => engine.run (edit files) events

namespace Operation

variable {engine : Engine} {files : FileTree}

/-- An operation is one look at the catalog and work that does not depend on how it was found. -/
theorem exists_consult (operation : Operation) (engine : Engine) :
    ∃ (α : Type) (reply : α → Reply) (work : Catalog → Logged Error α),
      (∀ files, operation.run engine files = answerBy reply (engine.consult files work)) ∧
        ∀ catalog files, operation.run (engine.withCatalog catalog) files =
          answerBy reply ((engine.withCatalog catalog).consult files work) := by
  cases operation with
  | generate | generateForKey | generateWith | assemble | renderSection | sections | issues =>
      exact ⟨_, _, _, fun _ => rfl, fun _ _ => rfl⟩

theorem step_of_error (operation : Operation) {e : Error} (h : engine.catalog files = .error e) :
    operation.step engine files = { files, operation, answer := .fail e, after := engine } := by
  obtain ⟨α, reply, work, hrun, -⟩ := operation.exists_consult engine
  rw [step, hrun, Engine.consult_of_error h]
  rfl

theorem after_of_ok (operation : Operation) {catalog : Catalog}
    (h : engine.catalog files = .ok catalog) :
    (operation.run engine files).2 = engine.withCatalog catalog := by
  obtain ⟨α, reply, work, hrun, -⟩ := operation.exists_consult engine
  rw [hrun, Engine.consult_of_ok h]
  rfl

theorem run_of_ok (operation : Operation) {catalog : Catalog}
    (h : engine.catalog files = .ok catalog) (elsewhere : FileTree) :
    operation.run engine files = operation.run (engine.withCatalog catalog) elsewhere := by
  obtain ⟨α, reply, work, hrun, hloaded⟩ := operation.exists_consult engine
  rw [hrun, hloaded, Engine.consult_of_ok h]
  rfl

end Operation

namespace Step

variable (step : Step) (engine : Engine) (catalog : Catalog)

/-- Loading failed with the files of this time, and the operation for the same reason. The engine is
as it was. -/
def IsRefused : Prop :=
  ∃ e, Catalog.load step.files engine.source = .error e ∧ step.answer = .fail e ∧
    step.after = engine

/-- The answer is that of the engine with the catalog given to it, among any files. -/
def IsServed : Prop :=
  step.after = engine.withCatalog catalog ∧
    ∀ files, step.answer = (step.operation.run (engine.withCatalog catalog) files).1

end Step

namespace Engine

variable {engine : Engine} {catalog : Catalog} {files : FileTree}

theorem catalog_of_unloaded (h : engine.loaded = none) (files : FileTree) :
    engine.catalog files = Catalog.load files engine.source := by
  rw [Engine.catalog, h]

theorem isServed_step (operation : Operation) (h : engine.catalog files = .ok catalog) :
    (operation.step engine files).IsServed engine catalog :=
  ⟨operation.after_of_ok h,
    fun elsewhere => congrArg Prod.fst (operation.run_of_ok h elsewhere)⟩

/-- An engine that has a catalog does not look at the files any more. -/
theorem isServed_of_mem_run {step : Step} {events : List Event}
    (h : step ∈ (engine.withCatalog catalog).run files events) : step.IsServed engine catalog := by
  induction events generalizing files with
  | nil => cases h
  | cons event events ih =>
      cases event with
      | call operation =>
          have hserved : Step.IsServed (operation.step (engine.withCatalog catalog) files) engine
              catalog := isServed_step operation rfl
          rw [run, hserved.1] at h
          obtain rfl | h := List.mem_cons.1 h
          · exact hserved
          · exact ih h
      | change edit => exact ih h

/-- **A catalog is loaded at most once.** Up to the first operation that can load one, all fail for
the reason of their own time; that one and all later ones answer like an engine that was given the
catalog, whatever becomes of the files. -/
theorem run_unloaded (h : engine.loaded = none) (files : FileTree) (events : List Event) :
    ∃ early late, engine.run files events = early ++ late ∧
      (∀ step ∈ early, step.IsRefused engine) ∧
      ∀ first ∈ late.head?, ∃ catalog, Catalog.load first.files engine.source = .ok catalog ∧
        ∀ step ∈ late, step.IsServed engine catalog := by
  induction events generalizing files with
  | nil => exact ⟨[], [], rfl, List.forall_mem_nil _, by rintro first ⟨⟩⟩
  | cons event events ih =>
      cases event with
      | call operation =>
          have hcatalog := catalog_of_unloaded h files
          -- A failure leaves the same engine to the rest, a success one that has its catalog.
          cases hload : Catalog.load files engine.source with
          | error e =>
              have hstep := operation.step_of_error (hcatalog.trans hload)
              obtain ⟨early, late, hrun, hearly, hlate⟩ := ih files
              refine ⟨operation.step engine files :: early, late, ?_,
                List.forall_mem_cons.2 ⟨?_, hearly⟩, hlate⟩
              · rw [run, hstep, hrun]
                rfl
              · rw [hstep]
                exact ⟨e, hload, rfl, rfl⟩
          | ok catalog =>
              have hserved := isServed_step operation (hcatalog.trans hload)
              refine ⟨[], _, rfl, List.forall_mem_nil _, ?_⟩
              rintro first ⟨⟩
              refine ⟨catalog, hload, List.forall_mem_cons.2 ⟨hserved, fun step hstep => ?_⟩⟩
              rw [hserved.1] at hstep
              exact isServed_of_mem_run hstep
      | change edit => exact ih (edit files)

def cardSelection : String := "selection_map: \x7bcard: \x7bsections: [name]\x7d\x7d"

def masterOnly : FileTree := .add {} "master" (.text "")

def bothFiles : FileTree := masterOnly.add "selection" (.text cardSelection)

/-- The second file is missing at first. When it is there it is read, and emptied too late. -/
def lateSelection : List Event :=
  [.call (.sections "card"), .write "selection" cardSelection, .call (.sections "card"),
    .write "selection" "", .call (.sections "card")]

theorem exists_load_bothFiles : ∃ catalog,
    Catalog.load bothFiles (.files "master" "selection") = .ok catalog ∧
      catalog.sectionsFor? "card" = some ["name"] := by
  have hmaster : Catalog.readFile bothFiles "master" = .ok "" := by rfl
  have hselection : Catalog.readFile bothFiles "selection" = .ok cardSelection := by rfl
  have hsections : (Catalog.read "" cardSelection).toOption.bind (Catalog.sectionsFor? · "card") =
      some ["name"] := by decide +kernel
  rw [Catalog.load, hmaster]
  simp only [bind, Except.bind, hselection]
  cases hread : Catalog.read "" cardSelection with
  | error e =>
      rw [hread] at hsections
      cases hsections
  | ok catalog =>
      rw [hread] at hsections
      exact ⟨catalog, rfl, hsections⟩

theorem run_unloaded_lateSelection :
    let engine : Engine := { source := .files "master" "selection" }
    engine.loaded = none ∧
      Catalog.load masterOnly engine.source = .error (.fileNotFound "selection") ∧
      masterOnly.write? "selection" cardSelection = some bothFiles ∧
      (∃ catalog, Catalog.load bothFiles engine.source = .ok catalog ∧
        catalog.sectionsFor? "card" = some ["name"]) ∧
      ∃ early late, engine.run masterOnly lateSelection = early ++ late ∧
        (∀ step ∈ early, step.IsRefused engine) ∧
        ∀ first ∈ late.head?, ∃ catalog, Catalog.load first.files engine.source = .ok catalog ∧
          ∀ step ∈ late, step.IsServed engine catalog := by
  intro engine
  have hunloaded : engine.loaded = none := rfl
  have hmissing : Catalog.load masterOnly engine.source = .error (.fileNotFound "selection") := rfl
  have hwrite : masterOnly.write? "selection" cardSelection = some bothFiles := rfl
  exact ⟨hunloaded, hmissing, hwrite, exists_load_bothFiles, run_unloaded hunloaded _ _⟩

end Engine

end PromptSheet
