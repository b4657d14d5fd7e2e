import PromptSheet.Yaml.Scalar
import PromptSheet.Yaml.Tag

/-!
The tokens of a YAML text. Layout is made explicit: where a block collection starts and ends, and
where the key of a mapping stood, although that shows only once the colon after it is reached. A
scanner therefore keeps, for every level of brackets, the place where a key may have started. Such a
key lies on one line and within 1024 bytes; it is required when it stands where the next key of
the enclosing block mapping has to be.
-/

namespace PromptSheet.Yaml

inductive Token where
  | versionDirective (major minor : Nat)
  | tagDirective (handle : List Char) (start : List UInt8)
  | documentStart
  | documentEnd
  | blockSequenceStart
  | blockMappingStart
  | blockEnd
  | flowSequenceStart
  | flowSequenceEnd
  | flowMappingStart
  | flowMappingEnd
  | blockEntry
  | flowEntry
  | key
  | value
  | alias (name : List Char)
  | anchor (name : List Char)
  | tag (written : TagText)
  | scalar (text : List Char) (style : Style)
deriving DecidableEq, Repr

structure PossibleKey where
  isRequired : Bool
  number : Nat
  index : Nat
  line : Nat
  column : Nat

/-- The state of a scanner: the tokens found so far, the latest first, and how many they are, the
columns of the open block collections, the innermost first, and the possible key of every level of
brackets. -/
structure Scanner where
  cursor : Cursor
  tokens : List Token := []
  count : Nat := 0
  indent : Int := -1
  outer : List Int := []
  keyAllowed : Bool := true
  keys : List (Option PossibleKey) := [none]

namespace Scanner

def inFlow (s : Scanner) : Bool :=
  1 < s.keys.length

def push (s : Scanner) (token : Token) : Scanner :=
  { s with tokens := token :: s.tokens, count := s.count + 1 }

/-- The possible key of a level, which is given up; nothing if it is required. -/
def dropKey? (s : Scanner) : Option Scanner :=
  match s.keys with
  | some key :: rest => if key.isRequired then none else some { s with keys := none :: rest }
  | _ => some s

def dropStaleKeys? (s : Scanner) : Option Scanner := do
  let keys ← s.keys.mapM fun
    | none => some none
    | some key =>
      if key.line < s.cursor.line || key.index + 1024 < s.cursor.index then
        if key.isRequired then none else some none
      else some (some key)
  return { s with keys }

def saveKey? (s : Scanner) : Option Scanner :=
  if !s.keyAllowed then some s
  else do
    let s ← s.dropKey?
    let key : PossibleKey :=
      { isRequired := !s.inFlow && s.indent == (s.cursor.column : Int)
        number := s.count
        index := s.cursor.index
        line := s.cursor.line
        column := s.cursor.column }
    return { s with keys := some key :: s.keys.tail }

def insert (s : Scanner) (number : Nat) (token : Token) : Scanner :=
  let later := s.count - number
  { s with
    tokens := s.tokens.take later ++ token :: s.tokens.drop later
    count := s.count + 1 }

/-- Opens a block collection at a column beyond the current one, after the first `number` tokens. -/
def openBlock (s : Scanner) (column : Nat) (number : Nat) (token : Token) : Scanner :=
  if !s.inFlow && s.indent < (column : Int) then
    { s.insert number token with indent := column, outer := s.indent :: s.outer }
  else s

def closeBlocks (s : Scanner) (column : Int) : Scanner :=
  if s.inFlow then s
  else
    let columns := s.indent :: s.outer
    let closed := columns.takeWhile fun indent => column < indent
    let kept := columns.drop closed.length
    { s with
      tokens := List.replicate closed.length .blockEnd ++ s.tokens
      count := s.count + closed.length
      indent := kept.headD (-1)
      outer := kept.tail }

/-- Passes over blanks, comments and line ends. A byte order mark may start any line. Tabs count as
blanks only where no key may start. A key may start on every new line outside of brackets. -/
def skipToToken (inFlow : Bool) : Nat → Bool → Cursor → Bool × Cursor
  | 0, keyAllowed, cursor => (keyAllowed, cursor)
  | fuel + 1, keyAllowed, cursor =>
    let isMarked := cursor.column == 0 && cursor.rest.head? == some '\ufeff'
    let start := if isMarked then cursor.skip 1 else cursor
    let gap := start.skipWhile fun c => c == ' ' || (c == '\t' && (inFlow || !keyAllowed))
    let after := if gap.rest.head? = some '#' then gap.skipLine else gap
    if after.atBreak then skipToToken inFlow fuel (keyAllowed || !inFlow) after.skipBreak
    else (keyAllowed, after)

def moveTo (cursor : Cursor) (rest : List Char) : Cursor :=
  cursor.skip (cursor.rest.length - rest.length)

def tag? (inFlow : Bool) (cursor : Cursor) : Option (Token × Cursor) := do
  let (written, rest) ← tagText? cursor.rest
  if endsWord rest || (inFlow && rest.head? = some ',') then
    return (.tag written, moveTo cursor rest)
  else none

def endsName (c : Char) : Bool :=
  "?:,]\x7d%@`".toList.contains c

def anchorName? (cursor : Cursor) : Option (List Char × Cursor) :=
  let (name, after) := cursor.spanWhile isWord
  let isEnded := endsWord after.rest || after.rest.head?.any endsName
  if !name.isEmpty && isEnded then some (name, after) else none

/-- A version number has at most nine digits. -/
def versionNumber? (cursor : Cursor) : Option (Nat × Cursor) :=
  let (digits, after) := cursor.spanWhile Char.isDigit
  if digits.isEmpty || 9 < digits.length then none
  else some (digits.foldl (fun n d => 10 * n + (d.toNat - '0'.toNat)) 0, after)

def directive? (cursor : Cursor) : Option (Token × Cursor) := do
  let (name, after) := cursor.spanWhile isWord
  if !endsWord after.rest then none
  else if name = ['Y', 'A', 'M', 'L'] then
    let (major, after) ← versionNumber? after.skipGaps
    if after.rest.head? = some '.' then
      let (minor, after) ← versionNumber? (after.skip 1)
      return (.versionDirective major minor, ← after.finishLine?)
    else none
  else if name = ['T', 'A', 'G'] then
    let start := after.skipGaps
    let (handle, rest) ← tagHandle? true start.rest
    let after := moveTo start rest
    if !after.rest.head?.any isGap then none
    else
      let start := after.skipGaps
      let (uri, rest) ← uri? true (start.rest.length + 1) start.rest
      let after := moveTo start rest
      if uri.isEmpty || !endsWord rest then none
      else return (.tagDirective handle (beforeZero uri), ← after.finishLine?)
  else none

/-- A token that ends everything that is open outside of brackets. -/
def topLevel? (s : Scanner) : Option Scanner := do
  let s ← (s.closeBlocks (-1)).dropKey?
  return { s with keyAllowed := false }

def mark (s : Scanner) (token : Token) : Scanner :=
  { s with cursor := s.cursor.skip 1 }.push token

def flowStart? (s : Scanner) (token : Token) : Option Scanner := do
  let s ← s.saveKey?
  return { s with keys := none :: s.keys, keyAllowed := true }.mark token

def flowEnd? (s : Scanner) (token : Token) : Option Scanner := do
  let s ← s.dropKey?
  let keys := if s.inFlow then s.keys.tail else s.keys
  return { s with keys, keyAllowed := false }.mark token

def blockEntry? (s : Scanner) : Option Scanner := do
  if !s.inFlow && !s.keyAllowed then none
  else
    let s := s.openBlock s.cursor.column s.count .blockSequenceStart
    let s ← s.dropKey?
    return { s with keyAllowed := true }.mark .blockEntry

def key? (s : Scanner) : Option Scanner := do
  if !s.inFlow && !s.keyAllowed then none
  else
    let s := s.openBlock s.cursor.column s.count .blockMappingStart
    let s ← s.dropKey?
    return { s with keyAllowed := !s.inFlow }.mark .key

/-- The colon after a key. If a key may have started before, it turns out to be one. -/
def value? (s : Scanner) : Option Scanner :=
  match s.keys with
  | some key :: rest =>
    let s := { s with keys := none :: rest, keyAllowed := false }
    let s := s.insert key.number .key
    some ((s.openBlock key.column key.number .blockMappingStart).mark .value)
  | _ =>
    if !s.inFlow && !s.keyAllowed then none
    else
      let s := s.openBlock s.cursor.column s.count .blockMappingStart
      some ({ s with keyAllowed := !s.inFlow }.mark .value)

def anchor? (s : Scanner) (token : List Char → Token) : Option Scanner := do
  let s ← s.saveKey?
  let (name, after) ← anchorName? (s.cursor.skip 1)
  return { s with cursor := after, keyAllowed := false }.push (token name)

def tagToken? (s : Scanner) : Option Scanner := do
  let s ← s.saveKey?
  let (token, after) ← tag? s.inFlow s.cursor
  return { s with cursor := after, keyAllowed := false }.push token

def blockScalarToken? (s : Scanner) (isLiteral : Bool) (fuel : Nat) : Option Scanner := do
  let s ← s.dropKey?
  let (text, after) ← blockScalar? isLiteral s.indent fuel (s.cursor.skip 1)
  return { s with cursor := after, keyAllowed := true }.push
    (.scalar text (if isLiteral then .literal else .folded))

def quotedToken? (s : Scanner) (double : Bool) (fuel : Nat) : Option Scanner := do
  let s ← s.saveKey?
  let (text, after) ← quotedFrom? double fuel (s.cursor.skip 1)
  return { s with cursor := after, keyAllowed := false }.push (.scalar text .quoted)

def plainToken? (s : Scanner) (fuel : Nat) : Option Scanner := do
  let s ← s.saveKey?
  let (text, after, isBroken) ← plainFrom? s.inFlow (s.indent + 1).toNat fuel {} s.cursor
  return { s with cursor := after, keyAllowed := isBroken }.push (.scalar text .plain)

def startsPlain (inFlow : Bool) (c : Char) (rest : List Char) : Bool :=
  !("-?:,[]\x7b\x7d#&*!|>'\"%@`".toList.contains c || isGap c || isBreak c) ||
    (c == '-' && !rest.head?.any isGap) ||
    (!inFlow && (c == '?' || c == ':') && !endsWord rest)

/-- The next token after blanks and comments; nothing if no token can start there. Fuel for one step
more than there are characters is enough. -/
def token? (s : Scanner) (fuel : Nat) (c : Char) (rest : List Char) : Option Scanner :=
  if s.cursor.column == 0 && c == '%' then do
    let s ← s.topLevel?
    let (token, after) ← directive? (s.cursor.skip 1)
    return { s with cursor := after }.push token
  else if s.cursor.atDocumentMark then do
    let s ← s.topLevel?
    return { s with cursor := s.cursor.skip 3 }.push
      (if c == '-' then .documentStart else .documentEnd)
  else if c == '[' then s.flowStart? .flowSequenceStart
  else if c == '\x7b' then s.flowStart? .flowMappingStart
  else if c == ']' then s.flowEnd? .flowSequenceEnd
  else if c == '\x7d' then s.flowEnd? .flowMappingEnd
  else if c == ',' then do
    let s ← s.dropKey?
    return { s with keyAllowed := true }.mark .flowEntry
  else if c == '-' && endsWord rest then s.blockEntry?
  else if c == '?' && (s.inFlow || endsWord rest) then s.key?
  else if c == ':' && (s.inFlow || endsWord rest) then s.value?
  else if c == '*' then s.anchor? .alias
  else if c == '&' then s.anchor? .anchor
  else if c == '!' then s.tagToken?
  else if c == '|' && !s.inFlow then s.blockScalarToken? true fuel
  else if c == '>' && !s.inFlow then s.blockScalarToken? false fuel
  else if c == '\'' then s.quotedToken? false fuel
  else if c == '"' then s.quotedToken? true fuel
  else if startsPlain s.inFlow c rest then s.plainToken? fuel
  else none

/-- Scans to the end of the text. Every step passes over at least one character, so fuel for one
step more than there are characters is enough here and within each step. -/
def run? : Nat → Scanner → Option (List Token)
  | 0, _ => none
  | fuel + 1, s => do
    let (keyAllowed, cursor) := skipToToken s.inFlow (fuel + 1) s.keyAllowed s.cursor
    let s ← { s with keyAllowed, cursor }.dropStaleKeys?
    let s := s.closeBlocks cursor.column
    match cursor.rest with
    | [] => do
      let s ← s.topLevel?
      return s.tokens.reverse
    | c :: rest => do
      let s ← s.token? (fuel + 1) c rest
      run? fuel s

end Scanner

def tokens? (text : List Char) : Option (List Token) :=
  if text.all isPrintable then
    Scanner.run? (text.length + 1) { cursor := { rest := text } }
  else none

end PromptSheet.Yaml
