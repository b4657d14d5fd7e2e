/-!
Digits and the numbers that they write. A digit of base sixteen may be of either case.
-/

namespace PromptSheet.Text

def hexValue? (c : Char) : Option Nat :=
  if '0' ≤ c ∧ c ≤ '9' then some (c.toNat - '0'.toNat)
  else if 'a' ≤ c ∧ c ≤ 'f' then some (c.toNat - 'a'.toNat + 10)
  else if 'A' ≤ c ∧ c ≤ 'F' then some (c.toNat - 'A'.toNat + 10)
  else none

def hexNumber? (n : Nat) (s : List Char) : Option Nat :=
  if (s.take n).length < n then none
  else (s.take n).foldlM (fun value c => (hexValue? c).map fun digit => 16 * value + digit) 0

/-- The number written in digits of a base; there is at least one. -/
def digits? (base : Nat) (s : List Char) : Option Nat :=
  if s.isEmpty then none
  else
    s.foldlM
      (fun n c =>
        (hexValue? c).bind fun digit => if digit < base then some (base * n + digit) else none)
      0

end PromptSheet.Text
