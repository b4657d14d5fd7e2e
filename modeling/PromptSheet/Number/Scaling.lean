import PromptSheet.Number.Shortest

/-!
Decimals read with double arithmetic: a whole significand becomes a double, and then it is
multiplied or divided by powers of ten that are doubles themselves. Each step rounds, so the result
need not be the double nearest to the decimal. What leaves the range is no number.
-/

namespace PromptSheet.Real

def mul : Real → Real → Real
  | .finite a m e, .finite b n f =>
    let product := binaryFraction (m * n) (e + f)
    ofQuotient (a != b) product.1 product.2
  | _, _ => .nan

def div : Real → Real → Real
  | .finite a m e, .finite b n f =>
    let num := binaryFraction m e
    let den := binaryFraction n f
    ofQuotient (a != b) (num.1 * den.2) (num.2 * den.1)
  | _, _ => .nan

def isZero : Real → Bool
  | .finite _ m _ => m == 0
  | _ => false

def withSign (negative : Bool) : Real → Real
  | .finite _ m e => .finite negative m e
  | .infinite _ => .infinite negative
  | .nan => .nan

/-- The greatest power of ten that is a double. -/
def greatestPower : Nat := 308

def powerOfTen (k : Nat) : Real :=
  ofQuotient false (Nat.pow 10 k) 1

/-- Divides by a power of ten, in several steps if it is too great to be a double. -/
def shrink (k : Nat) (value : Real) : Real :=
  if k ≤ greatestPower then value.div (powerOfTen k)
  else if value.isZero then value
  else shrink (k - greatestPower) (value.div (powerOfTen greatestPower))
termination_by k
decreasing_by simp only [greatestPower] at *; omega

/-- Multiplies by a power of ten; only zero can be multiplied by one that is too great. -/
def grow? (k : Nat) (value : Real) : Option Real :=
  if k ≤ greatestPower then
    let product := value.mul (powerOfTen k)
    if product.isFinite then some product else none
  else if value.isZero then some value
  else none

def ofScaled? (negative : Bool) (significand : Nat) (e : Int) : Option Real :=
  let value := ofQuotient false significand 1
  (if 0 ≤ e then grow? e.toNat value else some (shrink (-e).toNat value)).map (withSign negative)

end PromptSheet.Real
