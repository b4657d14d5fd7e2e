/-!
Numbers of documents: whole numbers, and reals of double precision. A finite real is its sign and
`significand * 2 ^ exponent`; a decimal is rounded to the nearest of them, a tie to the even
significand, in exact arithmetic.
-/

namespace PromptSheet

inductive Real where
  | finite (negative : Bool) (significand : Nat) (exponent : Int)
  | infinite (negative : Bool)
  | nan
deriving DecidableEq, Repr

inductive Number where
  | whole (value : Int)
  | real (value : Real)
deriving DecidableEq, Repr

namespace Real

/-- A significand is below this bound, and not below its half unless the exponent is the least one.
-/
def significandBound : Nat := Nat.pow 2 53

def leastExponent : Int := -1074

def greatestExponent : Int := 971

/-- The quotient to the nearest whole number, a tie to the even one. -/
def roundQuotient (num den : Nat) : Nat :=
  let q := num / den
  let twice := 2 * (num % den)
  if twice < den then q
  else if den < twice then q + 1
  else if q % 2 = 0 then q else q + 1

/-- The quotient divided by `2 ^ e`, as numerator and denominator. -/
def scale (num den : Nat) (e : Int) : Nat × Nat :=
  if 0 ≤ e then (num, den * Nat.pow 2 e.toNat) else (num * Nat.pow 2 (-e).toNat, den)

/-- The exponent with which `num / den` gets a significand of full length, or the least one. -/
def exponentFor (num den : Nat) : Int :=
  let guess : Int := (num.log2 : Int) - den.log2 - 52
  let scaled := scale num den guess
  let exact := if scaled.1 < scaled.2 * Nat.pow 2 52 then guess - 1 else guess
  max exact leastExponent

def ofQuotient (negative : Bool) (num den : Nat) : Real :=
  let e := exponentFor num den
  let scaled := scale num den e
  let m := roundQuotient scaled.1 scaled.2
  let (m, e) := if m = significandBound then (m / 2, e + 1) else (m, e)
  if greatestExponent < e then .infinite negative else .finite negative m e

/-- The nearest real to `digits * 10 ^ e`; `length` is the number of digits. Decimals far outside of
the range are settled by their magnitude alone. -/
def ofDecimal (negative : Bool) (digits length : Nat) (e : Int) : Real :=
  if digits = 0 then .finite negative 0 leastExponent
  else if (length : Int) + e > 400 then .infinite negative
  else if (length : Int) + e < -400 then .finite negative 0 leastExponent
  else if 0 ≤ e then ofQuotient negative (digits * Nat.pow 10 e.toNat) 1
  else ofQuotient negative digits (Nat.pow 10 (-e).toNat)

def isFinite : Real → Bool
  | .finite _ _ _ => true
  | _ => false

end Real

end PromptSheet
