import PromptSheet.Binding.Comic
import PromptSheet.Binding.Picture
import PromptSheet.Binding.Sheet
import PromptSheet.Kind

/-!
A registry holds, for each output type, how a state of some type becomes a store. The built-in one
serves every kind of document.
-/

namespace PromptSheet

structure Registry (σ : Type) where
  resolvers : Dict (σ → Store) := {}

namespace Registry

variable {σ : Type}

/-- Replaces what was registered for the output type. -/
def register (registry : Registry σ) (outputType : String) (resolver : σ → Store) : Registry σ :=
  { resolvers := registry.resolvers.insert outputType resolver }

def resolve? (registry : Registry σ) (outputType : String) (state : σ) : Option Store :=
  (registry.resolvers.get? outputType).map fun resolver => resolver state

def contains (registry : Registry σ) (outputType : String) : Bool :=
  registry.resolvers.contains outputType

def outputTypes (registry : Registry σ) : List String :=
  registry.resolvers.keys

end Registry

def Kind.bind : Kind → State → Store
  | .faceSheet => Binding.faceSheet
  | .bodySheet => Binding.bodySheet
  | .outfitSheet => Binding.outfitSheet
  | .pose => Binding.pose
  | .sceneBuilder => Binding.sceneBuilder
  | .background => Binding.background
  | .decorativeText => Binding.decorativeText
  | .fourPanel => Binding.fourPanel
  | .styleTransform => Binding.styleTransform
  | .infographic => Binding.infographic

def Registry.builtin : Registry State :=
  Kind.all.foldl (fun registry kind => registry.register kind.name kind.bind) {}

theorem Registry.resolve?_builtin (kind : Kind) (state : State) :
    Registry.builtin.resolve? kind.name state = some (kind.bind state) := by
  cases kind <;> rfl

end PromptSheet
