import PromptSheet.Document.Reading

/-!
Values that are written as JSON and read from a document of any format. A record is given by its
fields, and a record of records by the codecs of its parts.
-/

namespace PromptSheet

structure Codec (α : Type) where
  write : α → Json
  read : {δ : Type} → Format δ → δ → Reading α

structure Field (σ : Type) where
  name : String
  write : σ → Json
  read : {δ : Type} → Format δ → δ → σ → Reading σ

def Field.of {σ α : Type} (name : String) (codec : Codec α) (get : σ → α) (set : α → σ → σ) :
    Field σ where
  name := name
  write record := codec.write (get record)
  read format node record := return set (← codec.read format node) record

namespace Codec

variable {α σ : Type}

def text : Codec String where
  write := .text
  read format := format.readText

def flag : Codec Bool where
  write := .flag
  read format := format.readFlag

def choice (all : List α) (name : α → String) : Codec α where
  write value := .text (name value)
  read format node := do
    let chosen ← format.readChoice node
    all.find? fun value => name value == chosen

def optional (codec : Codec α) : Codec (Option α) where
  write
    | none => .null
    | some value => codec.write value
  read format := format.readOptional (codec.read format)

def list (codec : Codec α) : Codec (List α) where
  write values := .list (values.map codec.write)
  read format := format.readList (codec.read format)

def record (blank : σ) (fields : List (Field σ)) : Codec σ where
  write value := .object (fields.map fun field => (field.name, field.write value))
  read format := format.readRecord (fields.map fun field => (field.name, field.read format)) blank

/-- Reads a value from a JSON document, in which there are no references. -/
def ofJson? (codec : Codec α) (document : Json) : Option α :=
  (codec.read Json.format document).within? 0

end Codec

end PromptSheet
