import PromptSheet.Text.Digit
import PromptSheet.Yaml.Cursor

/-!
The three ways to write a scalar. Plain and quoted scalars may run over several lines: one line end
between two words becomes a space, of several the first is dropped. Block scalars keep their line
structure, or fold it in the same way, and say in their header what becomes of the line ends at
their end. A reader returns the text and the place after it, or nothing if the scalar is malformed.
-/

namespace PromptSheet.Yaml

inductive Style where
  | plain
  | quoted
  | literal
  | folded
deriving DecidableEq, Repr

/-- What stands between two words of a scalar: blanks, or line ends, the first kept apart. -/
structure Gap where
  blanks : List Char := []
  isBroken : Bool := false
  first : List Char := []
  more : List Char := []

namespace Gap

def text (gap : Gap) : List Char :=
  if !gap.isBroken then gap.blanks
  else if gap.first = ['\n'] then
    if gap.more.isEmpty then [' '] else gap.more
  else gap.first ++ gap.more

/-- Reads on to the next character that is neither a blank nor a line end. With `least` given, a tab
to the left of that column is an indentation that cannot be measured, which is an error. -/
def read? (least : Option Nat) : Nat → Gap → Cursor → Option (Gap × Cursor)
  | 0, _, _ => none
  | fuel + 1, gap, cursor =>
    match cursor.rest with
    | [] => some (gap, cursor)
    | c :: _ =>
      if isGap c then
        if gap.isBroken && c == '\t' && least.any (fun column => cursor.column < column) then none
        else if gap.isBroken then read? least fuel gap (cursor.skip 1)
        else read? least fuel { gap with blanks := gap.blanks ++ [c] } (cursor.skip 1)
      else if isBreak c then
        if gap.isBroken then
          read? least fuel { gap with more := gap.more ++ cursor.breakText } cursor.skipBreak
        else
          read? least fuel { gap with isBroken := true, first := cursor.breakText } cursor.skipBreak
      else some (gap, cursor)

end Gap

def isFlowMark (c : Char) : Bool :=
  c == ',' || c == '[' || c == ']' || c == '\x7b' || c == '\x7d'

/-- The first word of a plain scalar: up to a blank, a colon before a blank or, inside brackets, a
bracket or comma. Inside brackets a colon right before one of those is an error. -/
def plainWord? (inFlow : Bool) : List Char → Option (List Char)
  | [] => some []
  | c :: rest =>
    if isGap c || isBreak c then some []
    else if inFlow && c == ':' && (rest.head?.any fun d => isFlowMark d || d == '?') then none
    else if c == ':' && endsWord rest then some []
    else if inFlow && isFlowMark c then some []
    else (plainWord? inFlow rest).map (c :: ·)

/-- Reads words and the gaps between them, `gap` being the one before the first word; lines that
continue the scalar start at column `least` or after it. The last part of the result says whether
the scalar ended at a new line. Every step passes over a word or a gap, so fuel for one step more
than there are characters is enough here and for every gap. -/
def plainFrom? (inFlow : Bool) (least : Nat) :
    Nat → Gap → Cursor → Option (List Char × Cursor × Bool)
  | 0, _, _ => none
  | fuel + 1, gap, cursor =>
    if cursor.atDocumentMark || cursor.rest.head? = some '#' then
      some ([], cursor, gap.isBroken)
    else do
      let word ← plainWord? inFlow cursor.rest
      let found := if word.isEmpty then [] else gap.text ++ word
      let pending := if word.isEmpty then gap else {}
      let after := cursor.skip word.length
      if !endsWord after.rest || after.rest.isEmpty then
        some (found, after, pending.isBroken)
      else
        let (gap, next) ← Gap.read? (some least) (fuel + 1) pending after
        if !inFlow && next.column < least then some (found, next, gap.isBroken)
        else
          let (more, stop) ← plainFrom? inFlow least fuel gap next
          return (found ++ more, stop)

def charOfCode? (code : Nat) : Option Char :=
  if code.isValidChar then some (Char.ofNat code) else none

/-- The character that an escape stands for and the length of the escape after its backslash. -/
def escape? : List Char → Option (Char × Nat)
  | [] => none
  | c :: rest =>
    let coded (n : Nat) := ((Text.hexNumber? n rest).bind charOfCode?).map fun char => (char, n + 1)
    match c with
    | '0' => some ('\x00', 1)
    | 'a' => some ('\x07', 1)
    | 'b' => some ('\x08', 1)
    | 't' => some ('\t', 1)
    | '\t' => some ('\t', 1)
    | 'n' => some ('\n', 1)
    | 'v' => some ('\x0b', 1)
    | 'f' => some ('\x0c', 1)
    | 'r' => some ('\r', 1)
    | 'e' => some ('\x1b', 1)
    | ' ' => some (' ', 1)
    | '"' => some ('"', 1)
    | '/' => some ('/', 1)
    | '\\' => some ('\\', 1)
    | 'N' => some ('\u0085', 1)
    | '_' => some ('\u00a0', 1)
    | 'L' => some ('\u2028', 1)
    | 'P' => some ('\u2029', 1)
    | 'x' => coded 2
    | 'u' => coded 4
    | 'U' => coded 8
    | _ => none

/-- The characters up to a blank or the closing quote, the place after them, and whether an escaped
line end cut them short. -/
def quotedWord? (double : Bool) : Nat → Cursor → Option (List Char × Cursor × Bool)
  | 0, _ => none
  | fuel + 1, cursor =>
    let cons (c : Char) (cursor : Cursor) :=
      (quotedWord? double fuel cursor).map fun (word, after) => (c :: word, after)
    match cursor.rest with
    | [] => some ([], cursor, false)
    | c :: rest =>
      if isGap c || isBreak c then some ([], cursor, false)
      else if double then
        if c == '"' then some ([], cursor, false)
        else if c == '\\' then
          if rest.head?.any isBreak then some ([], (cursor.skip 1).skipBreak, true)
          else (escape? rest).bind fun (char, length) => cons char (cursor.skip (length + 1))
        else cons c (cursor.skip 1)
      else if c == '\'' then
        if rest.head? = some '\'' then cons '\'' (cursor.skip 2) else some ([], cursor, false)
      else cons c (cursor.skip 1)

/-- Reads words and gaps up to the closing quote. Fuel for one step more than there are characters
is enough here, for every word and for every gap. -/
def quotedFrom? (double : Bool) : Nat → Cursor → Option (List Char × Cursor)
  | 0, _ => none
  | fuel + 1, cursor =>
    if cursor.atDocumentMark || cursor.rest.isEmpty then none
    else do
      let (word, after, isEscaped) ← quotedWord? double (fuel + 1) cursor
      if after.rest.head? = some (if double then '"' else '\'') then
        some (word, after.skip 1)
      else
        let (gap, next) ← Gap.read? none (fuel + 1) { isBroken := isEscaped } after
        let (more, stop) ← quotedFrom? double fuel next
        return (word ++ gap.text ++ more, stop)

inductive Chomping where
  | strip
  | clip
  | keep
deriving DecidableEq, Repr

def blockHeader? : List Char → Option (Chomping × Option Nat × Nat)
  | s =>
    let chomping? (c : Char) : Option Chomping :=
      if c = '+' then some .keep else if c = '-' then some .strip else none
    let digit? (c : Char) : Option Nat :=
      if c.isDigit then some (c.toNat - '0'.toNat) else none
    let checked (chomping : Chomping) (indent : Option Nat) (length : Nat) :=
      if indent = some 0 then none else some (chomping, indent, length)
    match s with
    | c :: d :: _ =>
      match chomping? c, digit? c with
      | some chomping, _ =>
        match digit? d with
        | some n => checked chomping (some n) 2
        | none => checked chomping none 1
      | none, some n =>
        match chomping? d with
        | some chomping => checked chomping (some n) 2
        | none => checked .clip (some n) 1
      | none, none => checked .clip none 0
    | [c] =>
      match chomping? c, digit? c with
      | some chomping, _ => checked chomping none 1
      | none, some n => checked .clip (some n) 1
      | none, none => checked .clip none 0
    | [] => checked .clip none 0

/-- Reads the empty lines before a line with content. Without a known indentation, the widest line
of blanks counts for it; a tab in its place is an error. -/
def blockBreaks? : Nat → Option Nat → Nat → List Char → Cursor →
    Option (Nat × List Char × Cursor)
  | 0, _, _, _, _ => none
  | fuel + 1, indent, widest, breaks, cursor =>
    let spaces := cursor.rest.takeWhile (· == ' ')
    let width :=
      match indent with
      | none => spaces.length
      | some n => min spaces.length (n - cursor.column)
    let after := cursor.skip width
    let widest := max widest after.column
    if after.rest.head? = some '\t' && indent.all (fun n => after.column < n) then none
    else if after.atBreak then
      blockBreaks? fuel indent widest (breaks ++ after.breakText) after.skipBreak
    else some (widest, breaks, after)

/-- Reads the lines of a block scalar. `lead` is the line end before the line at hand, `breaks` are
the empty lines before it, and `wasBlank` says whether the last line started with a blank, which
keeps the lines around it from being folded. The result ends with the line end and the empty lines
after the last line. -/
def blockFrom? (isLiteral : Bool) (indent : Nat) :
    Nat → List Char → List Char → Bool → Cursor →
      Option (List Char × List Char × List Char × Cursor)
  | 0, _, _, _, _ => none
  | fuel + 1, lead, breaks, wasBlank, cursor =>
    match cursor.rest with
    | [] => some ([], lead, breaks, cursor)
    | c :: _ =>
      if cursor.column != indent then some ([], lead, breaks, cursor)
      else do
        let isBlank := isGap c
        let joint :=
          if !isLiteral && lead = ['\n'] && !wasBlank && !isBlank then
            if breaks.isEmpty then [' '] else breaks
          else lead ++ breaks
        let (line, after) := cursor.spanWhile fun d => !isBreak d
        let (_, breaks, next) ← blockBreaks? (fuel + 1) (some indent) 0 [] after.skipBreak
        let (more, stop) ← blockFrom? isLiteral indent fuel after.breakText breaks isBlank next
        return (joint ++ line ++ more, stop)

/-- The scalar after its indicator, inside a collection at column `parent`. Fuel for one step more
than there are characters is enough. -/
def blockScalar? (isLiteral : Bool) (parent : Int) (fuel : Nat) (cursor : Cursor) :
    Option (List Char × Cursor) := do
  let (chomping, increment, length) ← blockHeader? cursor.rest
  let start ← (cursor.skip length).finishLine?
  let given := increment.map fun n => if 0 ≤ parent then parent.toNat + n else n
  let (widest, breaks, first) ← blockBreaks? fuel given 0 [] start
  let indent := given.getD (max widest (max (parent + 1).toNat 1))
  let (text, lead, breaks, after) ← blockFrom? isLiteral indent fuel [] breaks false first
  let tail :=
    match chomping with
    | .strip => []
    | .clip => lead
    | .keep => lead ++ breaks
  return (text ++ tail, after)

end PromptSheet.Yaml
