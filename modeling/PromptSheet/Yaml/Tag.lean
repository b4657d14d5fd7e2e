import PromptSheet.Text.Digit
import PromptSheet.Yaml.Cursor

/-!
Tags. A tag is a sequence of bytes and need not be a text, since percent signs can write any of
them. It ends before its first zero byte, whatever follows.
-/

namespace PromptSheet.Yaml

structure Tag where
  bytes : List UInt8
deriving DecidableEq, Repr

namespace Tag

def ofText (s : String) : Tag :=
  { bytes := s.toUTF8.toList }

def coreStart : String :=
  "tag:yaml.org,2002:"

def core (name : String) : Tag :=
  ofText (coreStart ++ name)

def isLocal (tag : Tag) : Bool :=
  tag.bytes.head? == some '!'.toUInt8

/-- The name of a tag that belongs to the document and not to a schema. The lone `!` is a name, and
bytes that are no text are none. -/
def localName? (tag : Tag) : Option String :=
  if tag.isLocal then
    let name := tag.bytes.tail
    String.fromUTF8? ⟨(if name.isEmpty then tag.bytes else name).toArray⟩
  else none

end Tag

/-- The bytes that are left when everything from the first zero byte on is cut off. -/
def beforeZero (bytes : List UInt8) : List UInt8 :=
  bytes.takeWhile (· != 0)

def isUriChar (isVerbatim : Bool) (c : Char) : Bool :=
  isWord c || ";/?:@&=+$.%!~*'()".toList.contains c || (isVerbatim && ",[]".toList.contains c)

def percentBytes? : Nat → List Char → Option (List UInt8 × List Char)
  | 0, rest => some ([], rest)
  | n + 1, '%' :: a :: b :: rest => do
    let byte ← Text.hexNumber? 2 [a, b]
    let (bytes, rest) ← percentBytes? n rest
    return (byte.toUInt8 :: bytes, rest)
  | _, _ => none

def utf8Length? (byte : UInt8) : Option Nat :=
  if byte < 0x80 then some 1
  else if 0xC0 ≤ byte ∧ byte < 0xE0 then some 2
  else if 0xE0 ≤ byte ∧ byte < 0xF0 then some 3
  else if 0xF0 ≤ byte ∧ byte < 0xF8 then some 4
  else none

/-- The bytes of one character written with percent signs, and the text after it. Only the shape of
the bytes is looked at, so they need not stand for any character. -/
def percentChar? (s : List Char) : Option (List UInt8 × List Char) := do
  let (first, _) ← percentBytes? 1 s
  let length ← utf8Length? (← first.head?)
  let (bytes, rest) ← percentBytes? length s
  if bytes.tail.all fun byte => 0x80 ≤ byte && byte < 0xC0 then some (bytes, rest) else none

def uri? (isVerbatim : Bool) : Nat → List Char → Option (List UInt8 × List Char)
  | 0, _ => none
  | fuel + 1, s =>
    match s with
    | [] => some ([], [])
    | c :: rest =>
      if !isUriChar isVerbatim c then some ([], s)
      else do
        let (bytes, rest) ← if c == '%' then percentChar? s else some ([c.toUInt8], rest)
        let (more, rest) ← uri? isVerbatim fuel rest
        return (bytes ++ more, rest)

/-- A handle `!` or `!name!`; in a tag the second `!` may be missing. -/
def tagHandle? (inDirective : Bool) : List Char → Option (List Char × List Char)
  | '!' :: rest =>
    let name := rest.takeWhile isWord
    match rest.drop name.length with
    | '!' :: rest => some ('!' :: name ++ ['!'], rest)
    | rest => if inDirective && !name.isEmpty then none else some ('!' :: name, rest)
  | _ => none

structure TagText where
  /-- Nothing where the tag is written in full. -/
  handle : Option (List Char) := none
  suffix : List UInt8
deriving DecidableEq, Repr

/-- Reads `!<uri>`, `!handle!suffix`, `!suffix` or `!` alone. A part may not be missing, but it may
be nothing once it is cut. -/
def tagText? (s : List Char) : Option (TagText × List Char) := do
  let fuel := s.length + 1
  match s with
  | '!' :: '<' :: rest => do
    let (uri, rest) ← uri? true fuel rest
    match uri, rest with
    | _ :: _, '>' :: rest => some ({ suffix := beforeZero uri }, rest)
    | _, _ => none
  | s => do
    let (handle, rest) ← tagHandle? false s
    let (suffix, rest) ← uri? false fuel rest
    if handle.length > 1 && handle.getLast? = some '!' then
      if suffix.isEmpty then none
      else some ({ handle := some handle, suffix := beforeZero suffix }, rest)
    else
      let suffix := beforeZero (handle.tail.map Char.toUInt8 ++ suffix)
      some (if suffix.isEmpty then { suffix := ['!'.toUInt8] }
        else { handle := some ['!'], suffix }, rest)

end PromptSheet.Yaml
