/-!
Arguments of a command line. A switch stands alone or takes an operand, which is attached to it or
is the next argument. Long switches are spelled out; short ones are single letters, several of which
may share an argument. Everything else is a word, and after `--` everything is.

Arguments are examined in their order, and a switch that asks for help or for the version ends this:
what is wrong before it counts, and what is wrong after it does not.
-/

namespace PromptSheet.CommandLine

inductive Operand where
  | nothing
  | text
  /-- A path, which may not be empty. -/
  | path
deriving DecidableEq, Repr

structure Switch where
  name : String
  letter : Option Char := none
  operand : Operand := .nothing
  repeats : Bool := false
deriving DecidableEq, Repr

inductive Item where
  /-- A switch with its operand, which may stand apart from it as an argument of its own. -/
  | switch (switch : Switch) (operand : String) (isApart : Bool)
  | word (text : String)
  | words (texts : List String)
  | command (name : String) (arguments : List String)
  | misuse
deriving DecidableEq, Repr

namespace Item

def alone (switch : Switch) : Item :=
  .switch switch "" false

def attached (switch : Switch) (operand : List Char) : Item :=
  .switch switch (String.ofList operand) false

end Item

/-- What the switches of one argument come to; the last one may still lack its operand. -/
structure Argument where
  items : List Item
  awaiting : Option Switch := none

def isSwitch (argument : String) : Bool :=
  argument != "-" && argument.toList.head? == some '-'

def readLong (switches : List Switch) (s : List Char) : Argument :=
  let name := String.ofList (s.takeWhile (· != '='))
  match switches.find? fun switch => switch.name == name, s.dropWhile (· != '=') with
  | none, _ => { items := [.misuse] }
  | some switch, [] =>
    if switch.operand = .nothing then { items := [.alone switch] }
    else { items := [], awaiting := some switch }
  | some switch, _ :: operand =>
    if switch.operand = .nothing then { items := [.misuse] }
    else { items := [.attached switch operand] }

/-- Reads letters that share an argument. What follows a letter with an operand is the operand. -/
def readLetters (switches : List Switch) : List Char → Argument
  | [] => { items := [] }
  | c :: rest =>
    match switches.find? fun switch => switch.letter == some c with
    | none => { items := [.misuse] }
    | some switch =>
      if switch.operand = .nothing then
        let others := readLetters switches rest
        { others with items := .alone switch :: others.items }
      else
        match rest with
        | [] => { items := [], awaiting := some switch }
        | '=' :: operand => { items := [.attached switch operand] }
        | operand => { items := [.attached switch operand] }

/-- Reads arguments, the first of which may be the operand of a switch before it. With
`findsCommand` the first word ends the reading. -/
def scan (switches : List Switch) (findsCommand : Bool) : Option Switch → List String → List Item
  | none, [] => []
  | some _, [] => [.misuse]
  | some switch, operand :: rest =>
    if isSwitch operand then [.misuse]
    else .switch switch operand true :: scan switches findsCommand none rest
  | none, argument :: rest =>
    if argument == "--" then [.words rest]
    else if !isSwitch argument then
      if findsCommand then [.command argument rest]
      else .word argument :: scan switches findsCommand none rest
    else
      let read :=
        match argument.toList with
        | '-' :: '-' :: name => readLong switches name
        | letters => readLetters switches letters.tail
      read.items ++ scan switches findsCommand read.awaiting rest

def items (switches : List Switch) (findsCommand : Bool) (arguments : List String) : List Item :=
  scan switches findsCommand none arguments

structure Given where
  switches : List (String × String) := []
  words : List String := []

namespace Given

def has (given : Given) (name : String) : Bool :=
  given.switches.any fun switch => switch.1 == name

def operand? (given : Given) (name : String) : Option String :=
  given.switches.lookup name

def operands (given : Given) (name : String) : List String :=
  given.switches.filterMap fun switch => if switch.1 == name then some switch.2 else none

/-- Adds a switch. It stands only once unless it may be repeated, and a path that it is given must
not be empty. -/
def addSwitch? (given : Given) (switch : Switch) (operand : String) : Option Given :=
  if given.has switch.name && !switch.repeats then none
  else if switch.operand = .path ∧ operand.isEmpty then none
  else some { given with switches := given.switches ++ [(switch.name, operand)] }

def addWord (given : Given) (word : String) : Given :=
  { given with words := given.words ++ [word] }

end Given

structure Places where
  count : Nat := 0
  accepts : String → Bool := fun _ => true

def Places.hold (places : Places) (words : List String) : Bool :=
  words.length ≤ places.count && words.all places.accepts

inductive Gathered where
  | misuse
  | help
  | version
  | all (given : Given)
  /-- What was given before the name of the command; nothing if the switch right before the name is
  misused, which does not keep the command from giving help. -/
  | command (given : Option Given) (name : String) (arguments : List String)

/-- Goes through some items in their order. An operand that stands apart is examined only after the
command whose name follows it. -/
def gather (places : Places) : Given → List Item → Gathered
  | given, [] => .all given
  | _, .misuse :: _ => .misuse
  | given, .switch switch operand isApart :: rest =>
    if switch.name == "help" then .help
    else if switch.name == "version" then .version
    else
      match given.addSwitch? switch operand, isApart, rest with
      | some given, _, _ => gather places given rest
      | none, true, .command name arguments :: _ => .command none name arguments
      | none, _, _ => .misuse
  | given, .word text :: rest =>
    let given := given.addWord text
    if places.hold given.words then gather places given rest else .misuse
  | given, .words texts :: _ =>
    let given := texts.foldl Given.addWord given
    if places.hold given.words then .all given else .misuse
  | given, .command name arguments :: _ => .command given name arguments

end PromptSheet.CommandLine
