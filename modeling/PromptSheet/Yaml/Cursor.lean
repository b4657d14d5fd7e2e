/-!
A place in a YAML text and the characters that matter there. Lines end at a line feed, a carriage
return (the two together are one end), U+0085, U+2028 and U+2029. Counting columns from the last of
these is all that the layout rules of YAML need to know.
-/

namespace PromptSheet.Yaml

def isBreak (c : Char) : Bool :=
  c == '\n' || c == '\r' || c == '\u0085' || c == '\u2028' || c == '\u2029'

def isGap (c : Char) : Bool :=
  c == ' ' || c == '\t'

/-- The characters of anchors, directive names and tag handles. -/
def isWord (c : Char) : Bool :=
  c.isAlphanum || c == '_' || c == '-'

def isPrintable (c : Char) : Bool :=
  let n := c.toNat
  n == 0x9 || n == 0xA || n == 0xD || (0x20 ≤ n && n ≤ 0x7E) || n == 0x85 ||
    (0xA0 ≤ n && n ≤ 0xD7FF) || (0xE000 ≤ n && n ≤ 0xFFFD) || 0x10000 ≤ n

def endsWord : List Char → Bool
  | [] => true
  | c :: _ => isGap c || isBreak c

def endsLine : List Char → Bool
  | [] => true
  | c :: _ => isBreak c

def byteCount (s : List Char) : Nat :=
  s.foldl (fun count c => count + c.utf8Size) 0

/-- The text after a place, the number of bytes and of lines before it, and its column, which counts
characters. -/
structure Cursor where
  rest : List Char
  index : Nat := 0
  line : Nat := 0
  column : Nat := 0

namespace Cursor

def skip (cursor : Cursor) (n : Nat) : Cursor :=
  { cursor with
    rest := cursor.rest.drop n
    index := cursor.index + byteCount (cursor.rest.take n)
    column := cursor.column + n }

def skipBreak (cursor : Cursor) : Cursor :=
  match cursor.rest with
  | '\r' :: '\n' :: rest =>
    { rest, index := cursor.index + 2, line := cursor.line + 1, column := 0 }
  | c :: rest =>
    { rest, index := cursor.index + c.utf8Size, line := cursor.line + 1, column := 0 }
  | [] => cursor

/-- What the end of the line stands for inside a scalar: U+2028 and U+2029 are kept. -/
def breakText (cursor : Cursor) : List Char :=
  match cursor.rest with
  | '\u2028' :: _ => ['\u2028']
  | '\u2029' :: _ => ['\u2029']
  | _ :: _ => ['\n']
  | [] => []

def spanWhile (cursor : Cursor) (p : Char → Bool) : List Char × Cursor :=
  let taken := cursor.rest.takeWhile p
  (taken, cursor.skip taken.length)

def skipWhile (cursor : Cursor) (p : Char → Bool) : Cursor :=
  (cursor.spanWhile p).2

def skipGaps (cursor : Cursor) : Cursor :=
  cursor.skipWhile isGap

def skipLine (cursor : Cursor) : Cursor :=
  cursor.skipWhile fun c => !isBreak c

def atBreak (cursor : Cursor) : Bool :=
  match cursor.rest with
  | [] => false
  | c :: _ => isBreak c

/-- Passes over blanks and a comment, which must bring the line to its end. -/
def finishLine? (cursor : Cursor) : Option Cursor :=
  let gap := cursor.skipGaps
  let after := if gap.rest.head? = some '#' then gap.skipLine else gap
  if endsLine after.rest then some (if after.atBreak then after.skipBreak else after) else none

/-- A line that holds `---` or `...`, alone or before a blank, parts documents. -/
def atDocumentMark (cursor : Cursor) : Bool :=
  cursor.column == 0 &&
    match cursor.rest with
    | '-' :: '-' :: '-' :: rest => endsWord rest
    | '.' :: '.' :: '.' :: rest => endsWord rest
    | _ => false

end Cursor

end PromptSheet.Yaml
