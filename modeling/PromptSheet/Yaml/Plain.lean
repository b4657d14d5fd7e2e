import PromptSheet.Number.Real
import PromptSheet.Yaml.Scalar

/-!
What a plain scalar means where no type is asked for: nothing, a flag, a number, or its own text.
Whole numbers are written in decimal without leading zeros, or after `0x`, `0o` and `0b`; they lie
between the least signed and the greatest unsigned number of 64 bits, and those of 128 bits beyond
that are refused. A real out of range is no number, so it stays a text.
-/

namespace PromptSheet.Yaml

open Text (digits?)

inductive Plain where
  | null
  | flag (on : Bool)
  | number (value : Number)
  /-- A whole number that has no representation. -/
  | tooLarge
  | text

namespace Plain

def isNull (s : String) : Bool :=
  s == "null" || s == "Null" || s == "NULL" || s == "~"

def flag? (s : String) : Option Bool :=
  if s == "true" || s == "True" || s == "TRUE" then some true
  else if s == "false" || s == "False" || s == "FALSE" then some false
  else none

def based? : List Char → Option Nat
  | '0' :: 'x' :: rest => digits? 16 rest
  | '0' :: 'o' :: rest => digits? 8 rest
  | '0' :: 'b' :: rest => digits? 2 rest
  | _ => none

/-- Digits that start with a needless zero are a text. -/
def hasLeadingZero (s : List Char) : Bool :=
  match s with
  | '0' :: c :: rest => (c :: rest).all Char.isDigit
  | _ => false

def whole? (s : List Char) : Option Int :=
  let magnitude? (s : List Char) : Option Nat :=
    match based? s with
    | some n => some n
    | none => if hasLeadingZero s then none else digits? 10 s
  match s with
  | '+' :: rest => (magnitude? rest).map fun n => (n : Int)
  | '-' :: rest => (magnitude? rest).map fun n => -(n : Int)
  | _ => (magnitude? s).map fun n => (n : Int)

def fraction (s : List Char) : List Char × List Char :=
  match s with
  | '.' :: rest => (rest.takeWhile Char.isDigit, rest.dropWhile Char.isDigit)
  | _ => ([], s)

def exponent? (s : List Char) : Option Int :=
  let signed? (s : List Char) : Option Int :=
    match s with
    | '+' :: rest => (digits? 10 rest).map fun n => (n : Int)
    | '-' :: rest => (digits? 10 rest).map fun n => -(n : Int)
    | _ => (digits? 10 s).map fun n => (n : Int)
  match s with
  | [] => some 0
  | 'e' :: rest => signed? rest
  | 'E' :: rest => signed? rest
  | _ => none

/-- A decimal with an optional sign, point and exponent; it has a digit before or after the point.
-/
def decimal? (s : List Char) : Option Real :=
  let (negative, s) :=
    match s with
    | '+' :: rest => (false, rest)
    | '-' :: rest => (true, rest)
    | _ => (false, s)
  let before := s.takeWhile Char.isDigit
  let (after, rest) := fraction (s.dropWhile Char.isDigit)
  let digits := before ++ after
  match digits? 10 digits, exponent? rest with
  | some n, some e =>
    some (.ofDecimal negative n (toString n).length (e - after.length))
  | _, _ => none

def real? (s : List Char) : Option Real :=
  let text := String.ofList s
  let unsigned :=
    match s with
    | '+' :: rest => String.ofList rest
    | _ => text
  if unsigned == ".inf" || unsigned == ".Inf" || unsigned == ".INF" then some (.infinite false)
  else if text == "-.inf" || text == "-.Inf" || text == "-.INF" then some (.infinite true)
  else if text == ".nan" || text == ".NaN" || text == ".NAN" then some .nan
  else
    match s with
    | '+' :: '+' :: _ => none
    | '+' :: '-' :: _ => none
    | _ => (decimal? s).filter Real.isFinite

def number? (s : List Char) : Option Plain :=
  match whole? s with
  | some n =>
    if -Int.pow 2 63 ≤ n ∧ n < Int.pow 2 64 then some (.number (.whole n))
    else if -Int.pow 2 127 ≤ n ∧ n < Int.pow 2 128 then some .tooLarge
    else none
  | none => none

def ofText (s : String) : Plain :=
  if s.isEmpty || isNull s then .null
  else
    match flag? s with
    | some on => .flag on
    | none =>
      match number? s.toList with
      | some plain => plain
      | none =>
        match s.toList with
        | '-' :: rest => if hasLeadingZero rest then .text else orReal s
        | '+' :: rest => if hasLeadingZero rest then .text else orReal s
        | all => if hasLeadingZero all then .text else orReal s
where
  orReal (s : String) : Plain :=
    match real? s.toList with
    | some value => .number (.real value)
    | none => .text

end Plain

end PromptSheet.Yaml
