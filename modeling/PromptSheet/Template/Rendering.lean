import PromptSheet.Logged
import PromptSheet.Store
import PromptSheet.Template.Parse

/-!
Rendering a tree against a store. The only thing that can stop it is an included template that is no
template; whatever is missing shows as nothing, or as a remark where a template cannot be found.
Inclusions may form cycles, so their nesting is limited: the tree is rendered by recursion on
itself, with what an inclusion shows handed in from outside, and inclusions by recursion on how deep
they may still go.
-/

namespace PromptSheet.Template

abbrev Rendering :=
  Logged ParseError String

namespace Rendering

def ofText (content : String) : Rendering :=
  .ofValue content

def empty : Rendering :=
  ofText ""

def append (first : Rendering) (second : Unit → Rendering) : Rendering :=
  first.andThen fun content => (second ()).map (content ++ ·)

instance : HAndThen Rendering Rendering Rendering := ⟨append⟩

end Rendering

/-- The text that a value leaves in the document. Names that start with `@` belong to loops, so they
are empty outside of one whatever they are bound to. -/
def slotText (store : Store) (name : String) : String :=
  if name.toList.head? = some '@' ∧ store.loopDepth = 0 then ""
  else ((store.get? name).map Value.output).getD ""

/-- What an inclusion with this name and these parameters shows in a store. -/
abbrev Include :=
  String → List (String × String) → Store → Rendering

/-- Renders a loop's body for the records of a list, the first of which has position `i`. -/
def renderItems (body : Store → Rendering) (store : Store) : Nat → List Record → Rendering
  | _, [] => Rendering.empty
  | i, item :: rest => body (store.child item i) >> renderItems body store (i + 1) rest

namespace Node

mutual

def render (incl : Include) : Node → Store → Rendering
  | .text content, _ => Rendering.ofText content
  | .slot name, store => Rendering.ofText (slotText store name)
  | .rawSlot name, store => Rendering.ofText (slotText store name)
  | .condition expression negated body none, store =>
    if store.holds expression != negated then renderAll incl body store else Rendering.empty
  | .condition expression negated body (some other), store =>
    if store.holds expression != negated then renderAll incl body store
    else renderAll incl other store
  | .loop collection body, store =>
    match store.getList? collection with
    | none => Rendering.empty
    | some items => renderItems (renderAll incl body) store 0 items
  | .inclusion name parameters, store => incl name parameters store
  | .comment _, _ => Rendering.empty

def renderAll (incl : Include) : List Node → Store → Rendering
  | [], _ => Rendering.empty
  | node :: rest, store => render incl node store >> renderAll incl rest store

end

end Node

inductive Found where
  | source (text : String)
  | missing
  /-- There is a file of this name, but it cannot be read. -/
  | unreadable
deriving DecidableEq, Repr

structure Renderer where
  source : Option (String → Found) := none
  limit : Nat := 10

namespace Renderer

def missingRemark (name : String) : String :=
  "# Partial not found: " ++ name

/-- The store inside an included template: its parameters hide what was bound before. -/
def scope (store : Store) (parameters : List (String × String)) : Store :=
  store.setAll (parameters.map fun parameter => (parameter.1, .text parameter.2))

end Renderer

/-- What is shown of what was found under a name, its tree being rendered by `inner`. -/
def Found.shown (name : String) (inner : List Node → Rendering) : Found → Rendering
  | .missing => .warn (.templateNotFound name) (Renderer.missingRemark name)
  | .unreadable =>
    { warnings := [.templateUnreadable name, .templateNotFound name]
      result := .ok (Renderer.missingRemark name) }
  | .source text =>
    match parse text with
    | .error e => .fail e
    | .ok nodes => inner nodes

namespace Renderer

/-- What an inclusion shows where inclusions may still nest `remaining` deep. -/
def included (limit : Nat) (source : String → Found) : Nat → Include
  | 0, name, _, _ => .warn (.tooDeep name limit) ""
  | remaining + 1, name, parameters, store =>
    (source name).shown name fun nodes =>
      Node.renderAll (included limit source remaining) nodes (scope store parameters)

/-- Renders a tree inside which inclusions may still nest `remaining` deep. -/
def renderWithin (limit : Nat) (source : String → Found) (remaining : Nat) :
    List Node → Store → Rendering :=
  Node.renderAll (included limit source remaining)

/-- Without a source every inclusion is empty. -/
def render (renderer : Renderer) (nodes : List Node) (store : Store) : Rendering :=
  match renderer.source with
  | none => Node.renderAll (fun _ _ _ => Rendering.empty) nodes store
  | some source => renderWithin renderer.limit source renderer.limit nodes store

def renderText (renderer : Renderer) (source : String) (store : Store) : Rendering :=
  match parse source with
  | .error e => .fail e
  | .ok nodes => renderer.render nodes store

end Renderer

/-- The text of a tree that is rendered without a source. Should that fail, no text is left. -/
def renderAlone (nodes : List Node) (store : Store) : String :=
  match (Renderer.render {} nodes store).result with
  | .ok content => content
  | .error _ => ""

end PromptSheet.Template
