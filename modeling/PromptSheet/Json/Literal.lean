import PromptSheet.Json
import PromptSheet.Number.Scaling
import PromptSheet.Text.Digit

/-!
The literals of JSON texts: strings and numbers. A reader returns what it has read and the text
after it, or nothing if the literal is malformed.
-/

namespace PromptSheet.Json

/-- A character, or a UTF-16 unit given by its number. -/
inductive Piece where
  | char (c : Char)
  | unit (code : Nat)

def escapedChar? : Char → Option Char
  | '"' => some '"'
  | '\\' => some '\\'
  | '/' => some '/'
  | 'b' => some '\x08'
  | 'f' => some '\x0c'
  | 'n' => some '\n'
  | 'r' => some '\r'
  | 't' => some '\t'
  | _ => none

/-- The pieces up to the closing quote. Control characters must be escaped. -/
def pieces? : List Char → Option (List Piece × List Char)
  | [] => none
  | '"' :: rest => some ([], rest)
  | '\\' :: 'u' :: a :: b :: c :: d :: rest => do
    let code ← Text.hexNumber? 4 [a, b, c, d]
    let (pieces, rest) ← pieces? rest
    return (.unit code :: pieces, rest)
  | '\\' :: c :: rest => do
    let char ← escapedChar? c
    let (pieces, rest) ← pieces? rest
    return (.char char :: pieces, rest)
  | c :: rest => do
    if c < ' ' then none
    else
      let (pieces, rest) ← pieces? rest
      return (.char c :: pieces, rest)

def isHighSurrogate (code : Nat) : Bool :=
  0xD800 ≤ code && code < 0xDC00

def isLowSurrogate (code : Nat) : Bool :=
  0xDC00 ≤ code && code < 0xE000

/-- The characters of some pieces; two units that make a surrogate pair are one character, and half
a pair is none. -/
def join? : List Piece → Option (List Char)
  | [] => some []
  | .char c :: rest => (join? rest).map (c :: ·)
  | [.unit high] =>
    if isHighSurrogate high || isLowSurrogate high then none else some [Char.ofNat high]
  | .unit high :: next :: rest =>
    if isLowSurrogate high then none
    else if !isHighSurrogate high then (join? (next :: rest)).map (Char.ofNat high :: ·)
    else
      match next with
      | .unit low =>
        if isLowSurrogate low then
          (join? rest).map (Char.ofNat (0x10000 + 0x400 * (high - 0xD800) + (low - 0xDC00)) :: ·)
        else none
      | .char _ => none

def string? (s : List Char) : Option (Option String × List Char) :=
  (pieces? s).map fun (pieces, rest) => ((join? pieces).map String.ofList, rest)

def significandLimit : Nat := Nat.pow 2 64 - 1

structure Decimal where
  significand : Nat := 0
  exponent : Int := 0

/-- Takes in digits up to the first with which the significand would grow too great. -/
def Decimal.takeDigits (decimal : Decimal) (step : Int) : List Char → Decimal × List Char
  | [] => (decimal, [])
  | c :: rest =>
    let grown := 10 * decimal.significand + (c.toNat - '0'.toNat)
    if grown ≤ significandLimit then
      takeDigits { significand := grown, exponent := decimal.exponent + step } step rest
    else (decimal, c :: rest)

/-- The digits before the point; those that are not taken in still count for the magnitude. -/
def Decimal.ofWhole (digits : List Char) : Decimal :=
  let (decimal, left) := takeDigits {} 0 digits
  { decimal with exponent := left.length }

def Decimal.addFraction (decimal : Decimal) (digits : List Char) : Decimal :=
  (decimal.takeDigits (-1) digits).1

def digitRun? (s : List Char) : Option (List Char × List Char) :=
  let digits := s.takeWhile Char.isDigit
  if digits.isEmpty then none else some (digits, s.dropWhile Char.isDigit)

def fraction? : List Char → Option (Option (List Char) × List Char)
  | '.' :: rest => (digitRun? rest).map fun (digits, rest) => (some digits, rest)
  | rest => some (none, rest)

def exponentAfter? (s : List Char) : Option (Option Int × List Char) :=
  let signed? (sign : Int) (s : List Char) : Option (Option Int × List Char) :=
    (digitRun? s).bind fun (digits, rest) =>
      (Text.digits? 10 digits).map fun n => (some (sign * n), rest)
  match s with
  | '+' :: rest => signed? 1 rest
  | '-' :: rest => signed? (-1) rest
  | rest => signed? 1 rest

def exponent? : List Char → Option (Option Int × List Char)
  | 'e' :: rest => exponentAfter? rest
  | 'E' :: rest => exponentAfter? rest
  | rest => some (none, rest)

def ofReal? (value : Option Real) : Json :=
  match value with
  | some value => .number (.real value)
  | none => .unfit

/-- A number without point and exponent. It is whole if it fits in 64 bits, with or without a sign;
a negative zero is a real. -/
def ofDigits (negative : Bool) (digits : List Char) : Json :=
  let n := (Text.digits? 10 digits).getD 0
  if negative then
    if 0 < n ∧ n ≤ Nat.pow 2 63 then .number (.whole (-n)) else real
  else if n ≤ significandLimit then .number (.whole n)
  else real
where
  real : Json :=
    let decimal := Decimal.ofWhole digits
    ofReal? (Real.ofScaled? negative decimal.significand decimal.exponent)

def ofParts (negative : Bool) (digits : List Char) (fraction : Option (List Char))
    (exponent : Option Int) : Json :=
  match fraction, exponent with
  | none, none => ofDigits negative digits
  | _, _ =>
    let decimal := (Decimal.ofWhole digits).addFraction (fraction.getD [])
    ofReal? (Real.ofScaled? negative decimal.significand (decimal.exponent + exponent.getD 0))

def unsigned? (negative : Bool) (s : List Char) : Option (Json × List Char) := do
  let (digits, rest) ← digitRun? s
  if 1 < digits.length ∧ digits.head? = some '0' then none
  else
    let (fraction, rest) ← fraction? rest
    let (exponent, rest) ← exponent? rest
    return (ofParts negative digits fraction exponent, rest)

def number? : List Char → Option (Json × List Char)
  | '-' :: rest => unsigned? true rest
  | rest => unsigned? false rest

end PromptSheet.Json
