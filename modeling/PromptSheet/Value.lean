import PromptSheet.Dict

/-!
The data a template sees: texts, flags, whole numbers, records and lists of records.
-/

namespace PromptSheet

inductive Value where
  | text (content : String)
  | flag (on : Bool)
  | number (value : Int)
  | record (fields : Dict Value)
  | list (items : List (Dict Value))

abbrev Record := Dict Value

namespace Value

instance : Inhabited Value := ⟨.text ""⟩

def greatest : Int := Int.pow 2 63 - 1

/-- A count as a number. Numbers have 64 bits; a count that is too large for them is shown as the
greatest of them. -/
def ofCount (n : Nat) : Value :=
  .number (min n greatest)

/-- Only an empty text, a flag that is off and an empty list are false; every number is true. -/
def isTruthy : Value → Bool
  | .text content => !content.isEmpty
  | .flag on => on
  | .list items => !items.isEmpty
  | .number _ => true
  | .record _ => true

def output : Value → String
  | .text content => content
  | .flag on => if on then "true" else "false"
  | .number value => toString value
  | .record _ => ""
  | .list _ => ""

def asText? : Value → Option String
  | .text content => some content
  | _ => none

def asFlag? : Value → Option Bool
  | .flag on => some on
  | _ => none

def asNumber? : Value → Option Int
  | .number value => some value
  | _ => none

def asRecord? : Value → Option Record
  | .record fields => some fields
  | _ => none

def asList? : Value → Option (List Record)
  | .list items => some items
  | _ => none

/-- What its type is called. Rendering asks a value for a text or a list alone; this and the accessors
for the other types are for callers that look into a store. -/
def typeName : Value → String
  | .text _ => "string"
  | .flag _ => "bool"
  | .number _ => "int"
  | .record _ => "record"
  | .list _ => "list"

theorem asText?_eq_some_iff {value : Value} {content : String} :
    value.asText? = some content ↔ value = .text content := by
  cases value <;> simp [asText?]

theorem asList?_eq_some_iff {value : Value} {items : List Record} :
    value.asList? = some items ↔ value = .list items := by
  cases value <;> simp [asList?]

end Value

end PromptSheet
