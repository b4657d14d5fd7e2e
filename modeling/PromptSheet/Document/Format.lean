import PromptSheet.Json

/-!
What a document of some format offers to a reader that knows which shape it wants. A format says for
each node whether it can be taken as a text, a flag, a list and so on; the reader never looks at
the node itself, so one reader serves every format. A node may also refer to another one. Such
references are followed where they are met, and a document sets a limit to how many may be.
-/

namespace PromptSheet

/-- Reading, which may fail, while a number of references may still be followed. -/
abbrev Reading :=
  StateT Nat Option

def Reading.spend : Reading Unit
  | 0 => none
  | left + 1 => some ((), left)

def Reading.within? {α : Type} (reading : Reading α) (limit : Nat) : Option α :=
  reading.run' limit

/-- The parts of a node that is read as a record. -/
inductive Members (δ : Type) where
  | named (entries : List (String × δ))
  | placed (items : List δ)

/-- How the nodes of a format are taken. Only settled nodes are asked what they are. -/
structure Format (δ : Type) where
  /-- The node that is meant, which is no reference. -/
  settle : δ → Reading δ
  text? : δ → Option String
  flag? : δ → Option Bool
  choice? : δ → Option String
  /-- Whether the node stands for a setting that is left out, where one may be. -/
  absent? : δ → Option Bool
  items? : δ → Option (List δ)
  members : δ → Reading (Members δ)

namespace Json

/-- JSON says what it means: every shape has its own notation, and nothing refers to anything. -/
def format : Format Json where
  settle := pure
  text? node :=
    match node with
    | .text content => some content
    | _ => none
  flag? node :=
    match node with
    | .flag on => some on
    | _ => none
  choice? node :=
    match node with
    | .text content => some content
    | .object [(name, .null)] => some name
    | _ => none
  absent? node :=
    match node with
    | .null => some true
    | _ => some false
  items? node :=
    match node with
    | .list items => some items
    | _ => none
  members node :=
    match node with
    | .object members => pure (.named members)
    | .list items => pure (.placed items)
    | _ => failure

end Json

end PromptSheet
