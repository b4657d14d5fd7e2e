import PromptSheet.Template.Tag

/-!
A template as a sequence of texts and tags. The scanner takes one character at a time. A tag starts
at two open braces and ends at the first two closing ones; one that starts with three open braces
ends at the first three closing ones and is a raw slot whatever it holds. The first tag that is at
fault ends the sequence.
-/

namespace PromptSheet.Template

/-- A place in a text: the number of bytes before it and its line, counted from one. -/
structure Position where
  offset : Nat := 0
  line : Nat := 1
deriving DecidableEq, Repr

def Position.advance (p : Position) (c : Char) : Position :=
  { offset := p.offset + c.utf8Size
    line := if c = '\n' then p.line + 1 else p.line }

inductive Token where
  | text (content : String)
  | tag (tag : Tag) (start : Position)
deriving DecidableEq, Repr

def Token.ofSeen (seen : List Char) : List Token :=
  if seen.isEmpty then [] else [.text (String.ofList seen.reverse)]

/-- What the scanner is inside of. The characters seen so far are kept backwards, so that the brace
which may complete a delimiter is the first of them. -/
inductive Mode where
  | text (seen : List Char)
  | tag (start : Position) (seen : List Char)
  | rawTag (start : Position) (seen : List Char)
  | failed (error : ParseError)
deriving DecidableEq, Repr

namespace Mode

/-- The tokens completed by one character at `p`, and the mode after it. -/
def step (p : Position) (c : Char) : Mode → List Token × Mode
  | .text seen =>
    match c, seen with
    | '{', '{' :: before =>
      (Token.ofSeen before, .tag { offset := p.offset - 1, line := p.line } [])
    | _, _ => ([], .text (c :: seen))
  | .tag start seen =>
    match c, seen with
    | '{', [] => ([], .rawTag start [])
    | '}', '}' :: content =>
      match Tag.ofContent start.line content.reverse with
      | .ok found => ([.tag found start], .text [])
      | .error e => ([], .failed e)
    | _, _ => ([], .tag start (c :: seen))
  | .rawTag start seen =>
    match c, seen with
    | '}', '}' :: '}' :: content =>
      ([.tag (.rawSlot (String.ofList (Text.trim content.reverse))) start], .text [])
    | _, _ => ([], .rawTag start (c :: seen))
  | .failed e => ([], .failed e)

def finish : Mode → List Token × Option ParseError
  | .text seen => (Token.ofSeen seen, none)
  | .tag start _ => ([], some (.unclosedTag false start.line))
  | .rawTag start _ => ([], some (.unclosedTag true start.line))
  | .failed e => ([], some e)

end Mode

/-- The tokens before the first tag at fault, and what is wrong with it. -/
structure Scan where
  tokens : List Token
  failure : Option ParseError
deriving DecidableEq, Repr

def scanFrom (mode : Mode) (p : Position) : List Char → Scan
  | [] => ⟨mode.finish.1, mode.finish.2⟩
  | c :: rest =>
    let (tokens, mode) := mode.step p c
    let scan := scanFrom mode (p.advance c) rest
    { scan with tokens := tokens ++ scan.tokens }

def scan (source : String) : Scan :=
  scanFrom (.text []) {} source.toList

end PromptSheet.Template
