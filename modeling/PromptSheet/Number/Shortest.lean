import PromptSheet.Number.Real

/-!
The fewest digits that read back. Every real between the two midpoints around a double rounds to it,
the midpoints included when its significand is even. For one digit, then two, and so on, the two
decimals of that many digits next to the value are tried; the first that lies between the midpoints
is taken, and of two the nearer, a tie going to the even one.
-/

namespace PromptSheet.Real

/-- Twice two positive fractions `a / b` and `c / d` compared. -/
def fractionLt (a c : Nat × Nat) : Bool :=
  a.1 * c.2 < c.1 * a.2

def fractionLe (a c : Nat × Nat) : Bool :=
  a.1 * c.2 ≤ c.1 * a.2

def binaryFraction (n : Nat) (e : Int) : Nat × Nat :=
  if 0 ≤ e then (n * Nat.pow 2 e.toNat, 1) else (n, Nat.pow 2 (-e).toNat)

def decimalFraction (n : Nat) (e : Int) : Nat × Nat :=
  if 0 ≤ e then (n * Nat.pow 10 e.toNat, 1) else (n, Nat.pow 10 (-e).toNat)

/-- The midpoint below; just above a power of two the reals below lie twice as close. -/
def lowerMidpoint (m : Nat) (e : Int) : Nat × Nat :=
  if m = Nat.pow 2 52 ∧ leastExponent < e then binaryFraction (4 * m - 1) (e - 2)
  else binaryFraction (2 * m - 1) (e - 1)

def upperMidpoint (m : Nat) (e : Int) : Nat × Nat :=
  binaryFraction (2 * m + 1) (e - 1)

def roundsBack (m : Nat) (e : Int) (n : Nat) (k : Int) : Bool :=
  let decimal := decimalFraction n k
  if m % 2 = 0 then
    fractionLe (lowerMidpoint m e) decimal && fractionLe decimal (upperMidpoint m e)
  else
    fractionLt (lowerMidpoint m e) decimal && fractionLt decimal (upperMidpoint m e)

def leadingPlace (value : Nat × Nat) : Nat → Int → Int
  | 0, place => place
  | fuel + 1, place =>
    if fractionLe (decimalFraction 1 place) value then place
    else leadingPlace value fuel (place - 1)

def nearer (value : Nat × Nat) (n : Nat) (k : Int) : Nat :=
  let middle := decimalFraction (10 * n + 5) (k - 1)
  if fractionLt value middle then n
  else if fractionLt middle value then n + 1
  else if n % 2 = 0 then n else n + 1

def onGrid? (m : Nat) (e k : Int) (value : Nat × Nat) : Option Nat :=
  let unit := decimalFraction 1 k
  let below := (value.1 * unit.2) / (value.2 * unit.1)
  let fitsBelow := 0 < below && roundsBack m e below k
  let fitsAbove := roundsBack m e (below + 1) k
  if fitsBelow && fitsAbove then some (nearer value below k)
  else if fitsBelow then some below
  else if fitsAbove then some (below + 1)
  else none

def shortestFrom (m : Nat) (e : Int) (value : Nat × Nat) : Nat → Int → Nat × Int
  | 0, k => (0, k)
  | fuel + 1, k =>
    match onGrid? m e k value with
    | some n => (n, k)
    | none => shortestFrom m e value fuel (k - 1)

def dropZeros : Nat → Nat → Int → Nat × Int
  | 0, n, k => (n, k)
  | fuel + 1, n, k => if n % 10 = 0 ∧ n ≠ 0 then dropZeros fuel (n / 10) (k + 1) else (n, k)

/-- The fewest digits `n` and the exponent `k` such that `n * 10 ^ k` reads back as `m * 2 ^ e`. -/
def shortest (m : Nat) (e : Int) : Nat × Int :=
  if m = 0 then (0, 0)
  else
    let value := binaryFraction m e
    let found := shortestFrom m e value 18 (leadingPlace value 660 310)
    dropZeros 18 found.1 found.2

end PromptSheet.Real
