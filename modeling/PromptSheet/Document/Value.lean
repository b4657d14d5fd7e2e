import PromptSheet.Value
import PromptSheet.Number.Layout
import PromptSheet.Yaml.Value

/-!
From data in a document to the values of templates. Whole numbers that fit in 64 bits with a sign
stay numbers; every other number becomes its text. Of a list only the records stay. Nothing becomes
the empty text where a YAML catalog says so, and is left out where JSON data does.
-/

namespace PromptSheet

def Number.toValue (number : Number) (style : ExponentStyle) : Value :=
  match number with
  | .whole n => if -Int.pow 2 63 ≤ n ∧ n < Int.pow 2 63 then .number n else .text (number.text style)
  | .real _ => .text (number.text style)

namespace Yaml.Value

/-- A catalog writes `1e16`. -/
def exponentStyle : ExponentStyle :=
  { plus := "" }

/-- The text of a key, whatever tag it has; other keys name nothing. -/
def keyText? : Yaml.Value → Option String
  | .text content => some content
  | .tagged _ value => keyText? value
  | _ => none

mutual

def toValue : Yaml.Value → PromptSheet.Value
  | .null => .text ""
  | .flag on => .flag on
  | .number n => n.toValue exponentStyle
  | .text content => .text content
  | .list items => .list (toRecords items)
  | .table entries => .record (Dict.ofList (toEntries entries))
  | .tagged _ value => toValue value

def toEntries : List (Yaml.Value × Yaml.Value) → List (String × PromptSheet.Value)
  | [] => []
  | (key, value) :: rest =>
    match keyText? key with
    | some name => (name, toValue value) :: toEntries rest
    | none => toEntries rest

def toRecords : List Yaml.Value → List Record
  | [] => []
  | item :: rest => (toRecord? item).toList ++ toRecords rest

def toRecord? : Yaml.Value → Option Record
  | .table entries => some (Dict.ofList (toEntries entries))
  | .tagged _ value => toRecord? value
  | _ => none

end

end Yaml.Value

namespace Json

/-- JSON data writes `1e+16`. -/
def exponentStyle : ExponentStyle :=
  { plus := "+" }

/-- Of the members with one name the last counts, also if it is nothing. -/
def recordOf (members : List (String × Option PromptSheet.Value)) : Record :=
  (Dict.ofList members).filterMap id

mutual

def toValue? : Json → Option PromptSheet.Value
  | .null => none
  | .flag on => some (.flag on)
  | .number n => some (n.toValue exponentStyle)
  | .text content => some (.text content)
  | .list items => some (.list (toRecords items))
  | .object members => some (.record (recordOf (toMembers members)))
  | .unfit => none

def toMembers : List (String × Json) → List (String × Option PromptSheet.Value)
  | [] => []
  | (name, value) :: rest => (name, toValue? value) :: toMembers rest

def toRecords : List Json → List Record
  | [] => []
  | .object members :: rest => recordOf (toMembers members) :: toRecords rest
  | _ :: rest => toRecords rest

end

end Json

end PromptSheet
