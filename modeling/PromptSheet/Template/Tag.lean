import PromptSheet.Text.Blank

/-!
What stands between the braces of a tag. The kind of a tag is decided by the first character of its
trimmed content: `#` opens a block, `/` closes one, `!` starts a comment and `>` includes another
template; everything else is a name whose value is filled in.
-/

namespace PromptSheet.Template

/-- The blocks; a `when` block is written `#if`. -/
inductive Block where
  | when
  | unless
  | each
deriving DecidableEq, Repr

def Block.keyword : Block → List Char
  | .when => ['i', 'f']
  | .unless => ['u', 'n', 'l', 'e', 's', 's']
  | .each => ['e', 'a', 'c', 'h']

def Block.ofKeyword? (word : List Char) : Option Block :=
  [Block.when, .unless, .each].find? (fun block => block.keyword == word)

/-- The causes for which a text is no template. Each carries the line on which the construct at
fault starts, counted from one. -/
inductive ParseError where
  /-- A tag that is never closed; a triple tag needs three braces. -/
  | unclosedTag (triple : Bool) (line : Nat)
  | unclosedBlock (block : Block) (line : Nat)
  | missingArgument (block : Block) (line : Nat)
  | missingName (line : Nat)
deriving DecidableEq, Repr

namespace ParseError

def line : ParseError → Nat
  | .unclosedTag _ line => line
  | .unclosedBlock _ line => line
  | .missingArgument _ line => line
  | .missingName line => line

def shift (n : Nat) : ParseError → ParseError
  | .unclosedTag triple line => .unclosedTag triple (line + n)
  | .unclosedBlock block line => .unclosedBlock block (line + n)
  | .missingArgument block line => .missingArgument block (line + n)
  | .missingName line => .missingName (line + n)

def message : ParseError → String
  | .unclosedTag triple line =>
    "unclosed tag at line " ++ toString line ++ ": expected `" ++
      (if triple then "\x7d\x7d\x7d" else "\x7d\x7d") ++ "`"
  | .unclosedBlock block line =>
    "unclosed `#" ++ String.ofList block.keyword ++ "` block opened at line " ++ toString line
  | .missingArgument block line =>
    "`" ++ String.ofList block.keyword ++ "` at line " ++ toString line ++
      " is missing its argument"
  | .missingName line =>
    "`partial` at line " ++ toString line ++ " is missing its argument"

end ParseError

inductive Tag where
  | opening (block : Block) (argument : String)
  | otherwise
  | closing (name : String)
  | comment (content : String)
  | rawSlot (name : String)
  | inclusion (directive : String)
  | slot (name : String)
deriving DecidableEq, Repr

namespace Tag

def keywordAndRest (s : List Char) : List Char × List Char :=
  let cut := Text.cutAtBlank (Text.trim s)
  (cut.1, Text.trim cut.2)

/-- An unknown word after `#` opens no block: the whole content is then a name. -/
def ofBlock (line : Nat) (content block : List Char) : Except ParseError Tag :=
  let (word, argument) := keywordAndRest block
  match Block.ofKeyword? word with
  | none => .ok (.slot (String.ofList content))
  | some block =>
    if argument.isEmpty then .error (.missingArgument block line)
    else .ok (.opening block (String.ofList argument))

def ofTrimmed (line : Nat) (content : List Char) : Except ParseError Tag :=
  match content with
  | '#' :: block => ofBlock line content block
  | '!' :: rest => .ok (.comment (String.ofList (Text.trim rest)))
  | '/' :: rest => .ok (.closing (String.ofList (keywordAndRest rest).1))
  | '>' :: rest =>
    let directive := Text.trim rest
    if directive.isEmpty then .error (.missingName line)
    else .ok (.inclusion (String.ofList directive))
  | '{' :: rest =>
    match rest.reverse with
    | '}' :: inner => .ok (.rawSlot (String.ofList (Text.trim inner.reverse)))
    | _ => .ok (.slot (String.ofList content))
  | _ =>
    if content = ['e', 'l', 's', 'e'] then .ok .otherwise
    else .ok (.slot (String.ofList content))

def ofContent (line : Nat) (content : List Char) : Except ParseError Tag :=
  ofTrimmed line (Text.trim content)

def opensCondition : Tag → Bool
  | .opening .when _ => true
  | .opening .unless _ => true
  | _ => false

/-- Either word closes either condition. -/
def closesCondition : Tag → Bool
  | .closing name => name == "if" || name == "unless"
  | _ => false

def opensLoop : Tag → Bool
  | .opening .each _ => true
  | _ => false

def closesLoop : Tag → Bool
  | .closing name => name == "each"
  | _ => false

end Tag

end PromptSheet.Template
