import PromptSheet.Assembly
import PromptSheet.Binding.Registry
import PromptSheet.Catalog.Source
import PromptSheet.Kind

/-!
An engine makes documents from states. It loads its catalog when it first needs one and keeps it
from then on; as long as loading fails, each use tries again. Every operation answers and gives the
engine as it is afterwards.
-/

namespace PromptSheet

structure Engine where
  source : Catalog.Source := .bundled
  settings : Settings := {}
  registry : Registry State := .builtin
  loaded : Option Catalog := none

namespace Engine

def withCatalog (engine : Engine) (catalog : Catalog) : Engine :=
  { engine with loaded := some catalog }

def catalog (engine : Engine) (files : FileTree) : Except Error Catalog :=
  match engine.loaded with
  | some catalog => .ok catalog
  | none => Catalog.load files engine.source

def keep (engine : Engine) (catalog : Except Error Catalog) : Engine :=
  match catalog with
  | .ok catalog => engine.withCatalog catalog
  | .error _ => engine

def consult {α : Type} (engine : Engine) (files : FileTree) (work : Catalog → Logged Error α) :
    Logged Error α × Engine :=
  let catalog := engine.catalog files
  ((Logged.ofExcept catalog).andThen work, engine.keep catalog)

/-- The document of an output type, whose values come from any registry and state. -/
def generateWith {σ : Type} (engine : Engine) (files : FileTree) (registry : Registry σ)
    (outputType key : String) (state : σ) : Outcome × Engine :=
  engine.consult files fun catalog =>
    match registry.resolve? outputType state with
    | none => .fail (.unknownOutputType outputType)
    | some store => catalog.assemble engine.settings outputType key store

def generateForKey (engine : Engine) (files : FileTree) (kind : Kind) (key : String)
    (state : State) : Outcome × Engine :=
  engine.generateWith files engine.registry kind.name key state

def generate (engine : Engine) (files : FileTree) (kind : Kind) (state : State) :
    Outcome × Engine :=
  engine.generateForKey files kind (kind.selectionKey state) state

def assemble (engine : Engine) (files : FileTree) (outputType key : String) (store : Store) :
    Outcome × Engine :=
  engine.consult files fun catalog => catalog.assemble engine.settings outputType key store

def renderSection (engine : Engine) (files : FileTree) (outputType name : String) (store : Store) :
    Outcome × Engine :=
  engine.consult files fun catalog => catalog.renderSection engine.settings outputType name store

def sections (engine : Engine) (files : FileTree) (key : String) :
    Logged Error (List String) × Engine :=
  engine.consult files fun catalog => .ofValue ((catalog.sectionsFor? key).getD [])

def issues (engine : Engine) (files : FileTree) : Logged Error (List Issue) × Engine :=
  engine.consult files fun catalog => .ofValue (catalog.issues engine.settings.optional)

section Consult

variable {α : Type} {engine : Engine} {files : FileTree}

theorem consult_of_ok {catalog : Catalog} (h : engine.catalog files = .ok catalog)
    (work : Catalog → Logged Error α) :
    engine.consult files work = (work catalog, engine.withCatalog catalog) := by
  rw [consult, h]
  exact congrArg (·, _) (Logged.andThen_ofValue catalog work)

theorem consult_of_error {e : Error} (h : engine.catalog files = .error e)
    (work : Catalog → Logged Error α) : engine.consult files work = (.fail e, engine) := by
  rw [consult, h]
  exact congrArg (·, _) (Logged.andThen_fail e work)

end Consult

/-- With the built-in registry, a document of a kind is assembled from what the kind binds. -/
theorem generateForKey_of_builtin {engine : Engine} (h : engine.registry = .builtin)
    (files : FileTree) (kind : Kind) (key : String) (state : State) :
    engine.generateForKey files kind key state =
      engine.assemble files kind.name key (kind.bind state) := by
  rw [generateForKey, generateWith, h, Registry.resolve?_builtin]
  rfl

end Engine

end PromptSheet
