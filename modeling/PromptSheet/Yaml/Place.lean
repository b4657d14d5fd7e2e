import PromptSheet.Yaml.Value

/-!
A YAML document as a reader of known types sees it. Any scalar can be taken as its text. A plain
scalar without text, and a text without a document, count as an empty table and as an empty list.
Only plain scalars are flags, or nothing at all.
-/

namespace PromptSheet.Yaml

/-- A node together with the targets of the aliases in it; there is no node where there is no
document. -/
structure Place where
  targets : List (Nat × Node)
  node : Option Node

namespace Place

def child (place : Place) (node : Node) : Place :=
  { place with node := some node }

def settle (place : Place) : Reading Place :=
  match place.node with
  | none => pure place
  | some node => place.child <$> node.follow place.targets

def isVoid (place : Place) : Bool :=
  match place.node with
  | none => true
  | some (.scalar text style _) => text.isEmpty && style == .plain
  | _ => false

def text? (place : Place) : Option String :=
  place.node.bind Node.text?

def flag? (place : Place) : Option Bool :=
  match place.node with
  | some (.scalar text style tag) =>
    if style = .plain ∨ (style = .literal ∧ tag = some (.core "bool")) then Plain.flag? text
    else none
  | _ => none

/-- Nothing where a null has a text of its own, which is an error. -/
def absent? (place : Place) : Option Bool :=
  match place.node with
  | none => some true
  | some (.scalar text .plain none) => some (text.isEmpty || Plain.isNull text)
  | some (.scalar text .plain (some tag)) =>
    if tag = .core "null" then if Plain.isNull text then some true else none
    else some false
  | some _ => some false

/-- An alternative is named by a text or by a tag on nothing. -/
def choice? (place : Place) : Option String :=
  match place.node with
  | some (.scalar text style tag) =>
    match tag.bind Tag.localName? with
    | none => some text
    | some name => if style = .plain ∧ (text.isEmpty ∨ Plain.isNull text) then some name else none
  | _ => none

def items? (place : Place) : Option (List Place) :=
  match place.node with
  | some (.sequence items _) => some (items.map place.child)
  | _ => if place.isVoid then some [] else none

def entries (place : Place) : Reading (List (String × Place)) :=
  match place.node with
  | some (.mapping entries _) =>
    entries.mapM fun (key, value) => do
      let key ← (place.child key).settle
      return (← key.text?, place.child value)
  | _ => if place.isVoid then return [] else failure

/-- A value of any type, in which collections may nest `depth` deep. -/
def value (depth : Nat) (place : Place) : Reading Value :=
  match place.node with
  | none => return .null
  | some node => node.value place.targets depth

def format : Format Place where
  settle := settle
  text? := text?
  flag? := flag?
  choice? := choice?
  absent? := absent?
  items? := items?
  members place := Members.named <$> place.entries

end Place

/-- Reads the whole document. All aliases that are followed on the way count together. -/
def Document.readWith? {α : Type} (document : Document) (read : Place → Reading α) : Option α :=
  (read { targets := document.targets, node := document.root }).within? document.aliasLimit

end PromptSheet.Yaml
