import PromptSheet.Number.Shortest

/-!
The text of a number. A real always shows a point or an exponent. Its digits stand in place while
the point falls within sixteen places after the first digit or four zeros before it; beyond that
they are written with an exponent.
-/

namespace PromptSheet

structure ExponentStyle where
  /-- What stands before an exponent that is not negative. -/
  plus : String

namespace Real

def zeros (n : Nat) : String :=
  String.ofList (List.replicate n '0')

def exponentText (style : ExponentStyle) (e : Int) : String :=
  if e < 0 then toString e else style.plus ++ toString e

/-- Lays out the digits of a decimal whose point stands `point` places after the first of them. -/
def layoutDigits (style : ExponentStyle) (digits : List Char) (point : Int) : String :=
  let length : Int := digits.length
  if length ≤ point ∧ point ≤ 16 then
    String.ofList digits ++ zeros (point - length).toNat ++ ".0"
  else if 0 < point ∧ point ≤ 16 then
    String.ofList (digits.take point.toNat) ++ "." ++ String.ofList (digits.drop point.toNat)
  else if -5 < point ∧ point ≤ 0 then
    "0." ++ zeros (-point).toNat ++ String.ofList digits
  else
    let mantissa :=
      match digits with
      | first :: second :: rest => String.ofList (first :: '.' :: second :: rest)
      | short => String.ofList short
    mantissa ++ "e" ++ exponentText style (point - 1)

def text (style : ExponentStyle) : Real → String
  | .finite negative m e =>
    let sign := if negative then "-" else ""
    if m = 0 then sign ++ "0.0"
    else
      let (n, k) := shortest m e
      let digits := (toString n).toList
      sign ++ layoutDigits style digits ((digits.length : Int) + k)
  | .infinite negative => if negative then "-.inf" else ".inf"
  | .nan => ".nan"

end Real

def Number.text (style : ExponentStyle) : Number → String
  | .whole value => toString value
  | .real value => value.text style

end PromptSheet
