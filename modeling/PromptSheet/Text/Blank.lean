/-!
White space and the cuts made at it. A character is blank when it has the Unicode property
`White_Space`; the table below lists all 25 of them. Texts are lists of characters here, since every
reader of this library walks its text from the left.
-/

namespace PromptSheet.Text

/-- The code points with the Unicode property `White_Space`. -/
def blankCodes : List Nat :=
  [0x9, 0xA, 0xB, 0xC, 0xD, 0x20, 0x85, 0xA0, 0x1680, 0x2000, 0x2001, 0x2002, 0x2003, 0x2004,
    0x2005, 0x2006, 0x2007, 0x2008, 0x2009, 0x200A, 0x2028, 0x2029, 0x202F, 0x205F, 0x3000]

def isBlank (c : Char) : Bool :=
  blankCodes.contains c.toNat

def trimStart (s : List Char) : List Char :=
  s.dropWhile isBlank

def trimEnd (s : List Char) : List Char :=
  (s.reverse.dropWhile isBlank).reverse

def trim (s : List Char) : List Char :=
  trimEnd (trimStart s)

/-- The first word of a text and what follows it; the blank that ends the word stays in the rest. -/
def cutAtBlank (s : List Char) : List Char × List Char :=
  (s.takeWhile (fun c => !isBlank c), s.dropWhile (fun c => !isBlank c))

/-- The last word of a text, empty when the text ends with a blank. -/
def lastWord (s : List Char) : List Char :=
  (s.reverse.takeWhile (fun c => !isBlank c)).reverse

theorem cutAtBlank_append (s : List Char) : (cutAtBlank s).1 ++ (cutAtBlank s).2 = s :=
  List.takeWhile_append_dropWhile

end PromptSheet.Text
