import PromptSheet.Template.Parse
import PromptSheet.Text.Slice

/-!
The reader of templates as it goes through a text in memory. Places in the text are numbers of
bytes, blocks are runs of tokens between two indices, and what stands between two places is cut out
there. Here every cut, every index and every subtraction is checked: a reader gives nothing at all if
one of them is out of bounds or inside a character. A reader that calls itself is told how many calls
may stand one inside the other, and gives nothing at all if these do not bring it to an end.
-/

namespace PromptSheet.Template

/-- Reading that finds a fault in the template or comes to its end, if no check fails. -/
abbrev Checked (α : Type) :=
  ExceptT ParseError Option α

namespace Checked

/-- A check has failed. -/
def stuck {α : Type} : Checked α :=
  ExceptT.mk none

/-- A token that says where its tag starts, but not on which line. -/
inductive Lexeme where
  | text (content : String)
  | tag (tag : Tag) (offset : Nat)

def subtract? (n m : Nat) : Option Nat :=
  if m ≤ n then some (n - m) else none

/-- The line on which a place is, found by counting when it is asked for. -/
def lineAt? (source : List Char) (offset : Nat) : Option Nat := do
  let stop := min offset (Text.byteSize source)
  let before ← take? stop (Text.bytes source)
  return before.count 10 + 1

def keyword? (s : List Char) : Option (List Char × List Char) := do
  let (word, rest) ← Text.cutAtBlank? (Text.trim s)
  return (word, Text.trim rest)

def classify? (content : List Char) (line : Nat) : Checked Tag := do
  let content := Text.trim content
  match content with
  | '#' :: block =>
    let (word, argument) ← keyword? block
    match Block.ofKeyword? word with
    | none => return .slot (String.ofList content)
    | some block =>
      if argument.isEmpty then throw (.missingArgument block line)
      else return .opening block (String.ofList argument)
  | '!' :: rest => return .comment (String.ofList (Text.trim rest))
  | '/' :: rest =>
    let (name, _) ← keyword? rest
    return .closing (String.ofList name)
  | '>' :: rest =>
    let directive := Text.trim rest
    if directive.isEmpty then throw (.missingName line)
    else return .inclusion (String.ofList directive)
  | '{' :: rest =>
    match rest.reverse with
    | '}' :: inner => return .rawSlot (String.ofList (Text.trim inner.reverse))
    | _ => return .slot (String.ofList content)
  | _ =>
    if content = ['e', 'l', 's', 'e'] then return .otherwise
    else return .slot (String.ofList content)

/-- The tag that starts at a place, and the place after it. -/
def tagAt? (source : List Char) (start : Nat) : Checked (Lexeme × Nat) := do
  let rest ← Text.dropBytes? start source
  let triple := ['{', '{', '{'].isPrefixOf rest
  let opening := if triple then ['{', '{', '{'] else ['{', '{']
  let closing := if triple then ['}', '}', '}'] else ['}', '}']
  let contentStart := start + Text.byteSize opening
  match Text.find? closing (← Text.dropBytes? contentStart source) with
  | none => throw (.unclosedTag triple (← lineAt? source start))
  | some size =>
    let content ← Text.sliceBytes? contentStart (contentStart + size) source
    let tag ←
      if triple then pure (.rawSlot (String.ofList (Text.trim content)))
      else classify? content (← lineAt? source start)
    return (.tag tag start, contentStart + size + Text.byteSize closing)

/-- The token that starts at a place, and the place after it; there is none at the end. -/
def lexemeAt? (source : List Char) (start : Nat) : Checked (Option (Lexeme × Nat)) := do
  if Text.byteSize source ≤ start then return none
  else
    let rest ← Text.dropBytes? start source
    match Text.find? ['{', '{'] rest with
    | some 0 => return some (← tagAt? source start)
    | some size =>
      return some (.text (String.ofList (← Text.takeBytes? size rest)), start + size)
    | none => return some (.text (String.ofList rest), Text.byteSize source)

def lexemesFrom? (source : List Char) : (calls : Nat) → (start : Nat) → Checked (List Lexeme)
  | 0, _ => stuck
  | calls + 1, start => do
    match ← lexemeAt? source start with
    | none => return []
    | some (lexeme, next) =>
      let lexemes ← lexemesFrom? source calls next
      return lexeme :: lexemes

/-- A value and what follows it. -/
def value? (s : List Char) : Option (List Char × List Char) :=
  match s with
  | '"' :: _ => quoted? '"'
  | '\'' :: _ => quoted? '\''
  | _ => Text.cutAtBlank? s
where
  quoted? (quote : Char) : Option (List Char × List Char) := do
    let body ← Text.dropBytes? 1 s
    match Text.findChar? (· == quote) body with
    | some close => return (← Text.takeBytes? close body, ← Text.dropBytes? (close + 1) body)
    | none => return (body, [])

def parameters? : (calls : Nat) → (s : List Char) → Option (List (String × String))
  | 0, _ => none
  | calls + 1, s => do
    let rest := Text.trimStart s
    match Text.findChar? (· == '=') rest with
    | none => return []
    | some stop =>
      let key := Text.lastWord (Text.trim (← Text.takeBytes? stop rest))
      let (value, remaining) ← value? (← Text.dropBytes? (stop + 1) rest)
      let parameters ← parameters? calls remaining
      if key.isEmpty then return parameters
      else return (String.ofList key, String.ofList value) :: parameters

def directive? (s : List Char) : Option (String × List (String × String)) := do
  let (name, rest) ← Text.cutAtBlank? (Text.trim s)
  let parameters ← parameters? (rest.length + 1) rest
  return (String.ofList name, parameters)

/-- The index of the tag that closes a condition, if there is one, and that of the `else` that
splits it. The condition itself counts as one of the open ones. -/
def conditionEnd? (depth : Nat) (split : Option Nat) (index : Nat) :
    List Lexeme → Option (Option (Nat × Option Nat))
  | [] => return none
  | .text _ :: rest => conditionEnd? depth split (index + 1) rest
  | .tag tag _ :: rest => do
    if tag.opensCondition then conditionEnd? (depth + 1) split (index + 1) rest
    else if tag.closesCondition then
      let depth ← subtract? depth 1
      if depth = 0 then return some (index, split)
      else conditionEnd? depth split (index + 1) rest
    else if tag = .otherwise ∧ depth = 1 ∧ split = none then
      conditionEnd? depth (some index) (index + 1) rest
    else conditionEnd? depth split (index + 1) rest

def loopEnd? (depth : Nat) (index : Nat) : List Lexeme → Option (Option Nat)
  | [] => return none
  | .text _ :: rest => loopEnd? depth (index + 1) rest
  | .tag tag _ :: rest => do
    if tag.opensLoop then loopEnd? (depth + 1) (index + 1) rest
    else if tag.closesLoop then
      let depth ← subtract? depth 1
      if depth = 0 then return some index
      else loopEnd? depth (index + 1) rest
    else loopEnd? depth (index + 1) rest

/-- What a tag that stands for itself puts into the tree. -/
def leaf? : Tag → Option (List Node)
  | .inclusion directive => do
    let (name, parameters) ← directive? directive.toList
    return [.inclusion name parameters]
  | .slot name => return [.slot name]
  | .rawSlot name => return [.rawSlot name]
  | .comment content => return [.comment content]
  | .opening _ _ => return []
  | .otherwise => return []
  | .closing _ => return []

/-- The branches of a condition that has been cut out. -/
def branches? (inside : List Lexeme) :
    Option Nat → Option (List Lexeme × Option (List Lexeme))
  | some split => return (← take? split inside, some (← drop? (split + 1) inside))
  | none => return (inside, none)

def nodesFrom? (source : List Char) :
    (calls : Nat) → (tokens : List Lexeme) → (index : Nat) → Checked (List Node)
  | 0, _, _ => stuck
  | calls + 1, tokens, index => do
    if index < tokens.length then
      match ← (tokens[index]? : Option Lexeme) with
      | .text content =>
        let nodes ← nodesFrom? source calls tokens (index + 1)
        return .text content :: nodes
      | .tag (.opening .each collection) offset =>
        match ← loopEnd? 1 0 (← drop? (index + 1) tokens) with
        | none => throw (.unclosedBlock .each (← lineAt? source offset))
        | some size =>
          let body ← nodesFrom? source calls (← slice? (index + 1) (index + 1 + size) tokens) 0
          let nodes ← nodesFrom? source calls tokens (index + size + 2)
          return .loop collection body :: nodes
      | .tag (.opening block expression) offset =>
        match ← conditionEnd? 1 none 0 (← drop? (index + 1) tokens) with
        | none => throw (.unclosedBlock block (← lineAt? source offset))
        | some (size, split) =>
          let (first, other) ← branches? (← slice? (index + 1) (index + 1 + size) tokens) split
          let body ← nodesFrom? source calls first 0
          let otherwise ←
            match other with
            | none => pure none
            | some other => some <$> nodesFrom? source calls other 0
          let nodes ← nodesFrom? source calls tokens (index + size + 2)
          return .condition expression (block = .unless) body otherwise :: nodes
      | .tag tag _ =>
        let leaf ← leaf? tag
        let nodes ← nodesFrom? source calls tokens (index + 1)
        return leaf ++ nodes
    else return []

/-- No text has more tokens than bytes. -/
def parse? (source : String) : Checked (List Node) := do
  let tokens ← lexemesFrom? source.toList (Text.byteSize source.toList + 1) 0
  nodesFrom? source.toList (tokens.length + 1) tokens 0

end Checked

end PromptSheet.Template
