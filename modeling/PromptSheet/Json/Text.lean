import PromptSheet.Json.Literal

/-!
JSON texts. A text is one value with blanks around it; nothing may follow.
-/

namespace PromptSheet.Json

def isBlank (c : Char) : Bool :=
  c = ' ' || c = '\n' || c = '\t' || c = '\r'

def skipBlanks (s : List Char) : List Char :=
  s.dropWhile isBlank

def after? (word s : List Char) : Option (List Char) :=
  if word.isPrefixOf s then some (s.drop word.length) else none

def word? (s : List Char) : Option (Json × List Char) :=
  match after? ['n', 'u', 'l', 'l'] s with
  | some rest => some (.null, rest)
  | none =>
    match after? ['t', 'r', 'u', 'e'] s with
    | some rest => some (.flag true, rest)
    | none => (after? ['f', 'a', 'l', 's', 'e'] s).map fun rest => (.flag false, rest)

/-- The name of a member and the text after its colon. The name may be unfit. -/
def name? (s : List Char) : Option (Option String × List Char) :=
  match skipBlanks s with
  | '"' :: rest =>
    (string? rest).bind fun (name, rest) =>
      (after? [':'] (skipBlanks rest)).map fun rest => (name, rest)
  | _ => none

def ofMembers (members : List (Option String × Json)) : Json :=
  match members.mapM fun member => member.1.map fun name => (name, member.2) with
  | some members => .object members
  | none => .unfit

mutual

/-- Reads one value. Each call uses up some fuel, and none reads nothing. -/
def value? : Nat → List Char → Option (Json × List Char)
  | 0, _ => none
  | fuel + 1, s =>
    match skipBlanks s with
    | '"' :: rest =>
      (string? rest).map fun
        | (some content, rest) => (.text content, rest)
        | (none, rest) => (.unfit, rest)
    | '[' :: rest =>
      match after? [']'] (skipBlanks rest) with
      | some rest => some (.list [], rest)
      | none => (items? fuel rest).map fun (items, rest) => (.list items, rest)
    | '\x7b' :: rest =>
      match after? ['\x7d'] (skipBlanks rest) with
      | some rest => some (.object [], rest)
      | none => (members? fuel rest).map fun (members, rest) => (ofMembers members, rest)
    | rest =>
      match word? rest with
      | some found => some found
      | none => number? rest

def items? : Nat → List Char → Option (List Json × List Char)
  | 0, _ => none
  | fuel + 1, s =>
    (value? fuel s).bind fun (item, rest) =>
      match skipBlanks rest with
      | ',' :: rest => (items? fuel rest).map fun (items, rest) => (item :: items, rest)
      | ']' :: rest => some ([item], rest)
      | _ => none

def members? : Nat → List Char → Option (List (Option String × Json) × List Char)
  | 0, _ => none
  | fuel + 1, s =>
    (name? s).bind fun (name, rest) =>
      (value? fuel rest).bind fun (value, rest) =>
        match skipBlanks rest with
        | ',' :: rest =>
          (members? fuel rest).map fun (members, rest) => ((name, value) :: members, rest)
        | '\x7d' :: rest => some ([(name, value)], rest)
        | _ => none

end

def ofText? (text : String) : Option Json :=
  let s := text.toList
  (value? (2 * s.length + 1) s).bind fun (value, rest) =>
    if (skipBlanks rest).isEmpty then some value else none

/-- How deep collections may nest in data of unknown shape. -/
def depthLimit : Nat := 127

mutual

def isData : Nat → Json → Bool
  | _, .unfit => false
  | 0, .list _ => false
  | 0, .object _ => false
  | depth + 1, .list items => allData depth items
  | depth + 1, .object members => allMembersData depth members
  | _, _ => true

def allData (depth : Nat) : List Json → Bool
  | [] => true
  | item :: rest => isData depth item && allData depth rest

def allMembersData (depth : Nat) : List (String × Json) → Bool
  | [] => true
  | (_, value) :: rest => isData depth value && allMembersData depth rest

end

def dataOfText? (text : String) : Option Json :=
  (ofText? text).filter (isData depthLimit)

end PromptSheet.Json
