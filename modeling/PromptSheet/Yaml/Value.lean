import PromptSheet.Document.Format
import PromptSheet.Yaml.Node
import PromptSheet.Yaml.Plain

/-!
A document read without a type. Plain scalars say what they are, quoted ones are texts, and a tag of
the core schema settles the type by itself. Collections may nest 128 deep, and a document may follow
no more than a hundred aliases for each of its nodes.
-/

namespace PromptSheet.Yaml

/-- A value whose type the document itself decides. -/
inductive Value where
  | null
  | flag (on : Bool)
  | number (value : Number)
  | text (content : String)
  | list (items : List Value)
  | table (entries : List (Value × Value))
  /-- A value with a tag of the document's own. -/
  | tagged (tag : String) (value : Value)

instance : Inhabited Value := ⟨.null⟩

namespace Value

def numberSame : Number → Number → Bool
  | .real (.finite _ 0 _), .real (.finite _ 0 _) => true
  | a, b => a == b

def unmarked (tag : String) : String :=
  match tag.toList with
  | '!' :: c :: rest => String.ofList (c :: rest)
  | _ => tag

mutual

/-- Whether two keys are the same key. The order of entries does not matter. -/
def same : Value → Value → Bool
  | .null, .null => true
  | .flag a, .flag b => a == b
  | .number a, .number b => numberSame a b
  | .text a, .text b => a == b
  | .list a, .list b => sameAll a b
  | .table a, .table b => a.length == b.length && hasEntries b a
  | .tagged s a, .tagged t b => unmarked s == unmarked t && same a b
  | _, _ => false

def sameAll : List Value → List Value → Bool
  | [], [] => true
  | a :: as, b :: bs => same a b && sameAll as bs
  | _, _ => false

def hasEntries (table : List (Value × Value)) : List (Value × Value) → Bool
  | [] => true
  | (key, value) :: rest =>
    (table.any fun entry => same key entry.1 && same value entry.2) && hasEntries table rest

end

end Value

namespace Node

def follow (targets : List (Nat × Node)) : Node → Reading Node
  | .alias number => do
    Reading.spend
    targets.lookup number
  | node => pure node

def tag? : Node → Option Tag
  | .scalar _ _ tag => tag
  | .sequence _ tag => tag
  | .mapping _ tag => tag
  | .alias _ => none

def localTag? (node : Node) : Option String :=
  node.tag?.bind Tag.localName?

def plainValue? (text : String) : Option Value :=
  match Plain.ofText text with
  | .null => some .null
  | .flag on => some (.flag on)
  | .number value => some (.number value)
  | .tooLarge => none
  | .text => some (.text text)

/-- A scalar read without a type; nothing if it does not fit its tag. On a plain scalar a local tag
without a name says nothing. -/
def scalarValue? (text : String) (style : Style) (tag : Option Tag) : Option Value :=
  match tag with
  | none => if style = .plain then plainValue? text else some (.text text)
  | some tag =>
    if tag = .core "bool" then (Plain.flag? text).map .flag
    else if tag = .core "int" then
      match Plain.number? text.toList with
      | some (.number value) => some (.number value)
      | _ => none
    else if tag = .core "float" then
      (Plain.real? text.toList).map fun value => .number (.real value)
    else if tag = .core "null" then if Plain.isNull text then some .null else none
    else if tag.isLocal ∧ style = .plain then plainValue? text
    else some (.text text)

/-- Reads a value in which collections may still nest `depth` deep. What a local tag is put on is
read as if it had none. -/
def value (targets : List (Nat × Node)) : Nat → Node → Reading Value
  | depth, node => do
    let node ← node.follow targets
    let found := node.localTag?
    let value ←
      match node, depth with
      | .scalar text style tag, _ => scalarValue? text style (if found.isSome then none else tag)
      | .sequence items _, depth + 1 => Value.list <$> items.mapM (value targets depth)
      | .mapping entries _, depth + 1 =>
        let entries ← entries.mapM fun entry =>
          return (← value targets depth entry.1, ← value targets depth entry.2)
        if hasRepetition (entries.map Prod.fst) then failure else pure (Value.table entries)
      | _, _ => failure
    return match found with
      | none => value
      | some tag => .tagged tag value
where
  hasRepetition : List Value → Bool
    | [] => false
    | key :: keys => keys.any key.same || hasRepetition keys

def text? : Node → Option String
  | .scalar text _ _ => some text
  | _ => none

/-- Reads JSON data, in which tags have no place, keys are the texts of scalars, and what is no
finite number is nothing. -/
def json (targets : List (Nat × Node)) : Nat → Node → Reading Json
  | depth, node => do
    let node ← node.follow targets
    if node.localTag?.isSome then failure
    else
      match node, depth with
      | .scalar text style tag, _ =>
        return match ← scalarValue? text style tag with
          | .flag on => .flag on
          | .number (.real value) => if value.isFinite then .number (.real value) else .null
          | .number value => .number value
          | .text content => .text content
          | _ => .null
      | .sequence items _, depth + 1 => Json.list <$> items.mapM (json targets depth)
      | .mapping entries _, depth + 1 =>
        Json.object <$> entries.mapM fun entry => do
          let key ← (← entry.1.follow targets).text?
          return (key, ← json targets depth entry.2)
      | _, _ => failure

end Node

namespace Document

def depthLimit : Nat := 128

def aliasLimit (document : Document) : Nat :=
  100 * document.size

/-- The document as JSON data; one without a document is nothing. -/
def json? (document : Document) : Option Json :=
  match document.root with
  | none => some .null
  | some node => (node.json document.targets depthLimit).within? document.aliasLimit

end Document

end PromptSheet.Yaml
