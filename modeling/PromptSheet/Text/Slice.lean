import PromptSheet.Text.Blank

/-!
Parts of lists, and of texts by the bytes that their characters take up in UTF-8. A part is there or
it is not: there is none beyond the end, and none that starts or ends inside a character.
-/

namespace PromptSheet

section Lists

variable {α : Type}

def take? (count : Nat) (items : List α) : Option (List α) :=
  if count ≤ items.length then some (items.take count) else none

def drop? (count : Nat) (items : List α) : Option (List α) :=
  if count ≤ items.length then some (items.drop count) else none

def slice? (start stop : Nat) (items : List α) : Option (List α) :=
  if start ≤ stop then (take? stop items).map (List.drop start) else none

end Lists

namespace Text

def bytes (s : List Char) : List UInt8 :=
  s.flatMap String.utf8EncodeChar

def byteSize (s : List Char) : Nat :=
  (bytes s).length

def takeBytes? : Nat → List Char → Option (List Char)
  | 0, _ => some []
  | _ + 1, [] => none
  | size + 1, c :: rest =>
    if c.utf8Size ≤ size + 1 then (takeBytes? (size + 1 - c.utf8Size) rest).map (c :: ·) else none

def dropBytes? : Nat → List Char → Option (List Char)
  | 0, s => some s
  | _ + 1, [] => none
  | size + 1, c :: rest =>
    if c.utf8Size ≤ size + 1 then dropBytes? (size + 1 - c.utf8Size) rest else none

def sliceBytes? (start stop : Nat) (s : List Char) : Option (List Char) :=
  if start ≤ stop then (dropBytes? start s).bind (takeBytes? (stop - start)) else none

/-- How many bytes come before the first place at which the pattern starts. -/
def find? (pattern : List Char) : List Char → Option Nat
  | [] => if pattern.isEmpty then some 0 else none
  | c :: rest =>
    if pattern.isPrefixOf (c :: rest) then some 0
    else (find? pattern rest).map (· + c.utf8Size)

/-- How many bytes come before the first such character. -/
def findChar? (p : Char → Bool) : List Char → Option Nat
  | [] => none
  | c :: rest => if p c then some 0 else (findChar? p rest).map (· + c.utf8Size)

/-- The first word of a text and what follows it, cut out at the place of the first blank. -/
def cutAtBlank? (s : List Char) : Option (List Char × List Char) := do
  match findChar? isBlank s with
  | some stop => return (← takeBytes? stop s, ← dropBytes? stop s)
  | none => return (s, [])

end Text

end PromptSheet
