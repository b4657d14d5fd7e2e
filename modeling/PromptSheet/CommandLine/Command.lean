import PromptSheet.CommandLine.Switch
import PromptSheet.Kind

/-!
The commands of the program and how they are given by arguments. The directory of the catalog can be
given before or after the name of the command, the latter being the stronger, and otherwise by the
environment.
-/

namespace PromptSheet

structure GenerateOptions where
  kind : Kind
  /-- The selection key, if it is not the one that the state selects. -/
  key : Option String := none
  statePath : Option String := none
  outputPath : Option String := none
  prunes : Bool := false
deriving DecidableEq, Repr

structure RenderOptions where
  name : String
  valuesPath : Option String := none
  directories : List String
deriving DecidableEq, Repr

inductive Command where
  | generate (options : GenerateOptions)
  | sections (key : String)
  | kinds
  | check
  | render (options : RenderOptions)
  | version
  | help
deriving DecidableEq, Repr

structure Invocation where
  catalog : Option String := none
  command : Command
deriving DecidableEq, Repr

namespace CommandLine

/-- The switches that may stand anywhere. -/
def generalSwitches : List Switch :=
  [{ name := "catalog", operand := .path },
   { name := "verbose", letter := some 'v' },
   { name := "help", letter := some 'h' }]

def programSwitches : List Switch :=
  { name := "version", letter := some 'V' } :: generalSwitches

/-- A command as arguments name it: its own switches, the words it takes, and what it asks for. -/
structure Form where
  name : String
  switches : List Switch := []
  places : Places := {}
  command? : Given → Option Command

def generateForm : Form where
  name := "generate"
  switches :=
    [{ name := "state", operand := .path },
     { name := "key", operand := .text },
     { name := "prune" },
     { name := "output", letter := some 'o', operand := .path }]
  places := { count := 1, accepts := fun word => (Kind.ofName? word).isSome }
  command? given :=
    (given.words.head?.bind Kind.ofName?).map fun kind =>
      .generate
        { kind
          key := given.operand? "key"
          statePath := given.operand? "state"
          outputPath := given.operand? "output"
          prunes := given.has "prune" }

def sectionsForm : Form where
  name := "sections"
  places := { count := 1 }
  command? given := given.words.head?.map .sections

def kindsForm : Form where
  name := "kinds"
  command? _ := some .kinds

def checkForm : Form where
  name := "check"
  command? _ := some .check

/-- At least one directory must be given. -/
def renderForm : Form where
  name := "render"
  switches :=
    [{ name := "vars", operand := .path },
     { name := "library", operand := .path, repeats := true }]
  places := { count := 1 }
  command? given :=
    if given.has "library" then
      given.words.head?.map fun name =>
        .render
          { name
            valuesPath := given.operand? "vars"
            directories := given.operands "library" }
    else none

def forms : List Form :=
  [generateForm, sectionsForm, kindsForm, checkForm, renderForm]

def isTopic : List String → Bool
  | [] => true
  | [name] => name == "help" || forms.any fun form => form.name == name
  | _ => false

/-- The catalog given before the command's name, after it, and by the environment. The environment
is asked for each of the first two that is missing, and the empty path is no directory. -/
def catalog? (before after environment : Option String) : Option (Option String) :=
  if environment = some "" ∧ (before.isNone ∨ after.isNone) then none
  else some (after.or (before.or environment))

/-- Reads a command line; nothing if the program is misused. -/
def read? (environment : Option String) (arguments : List String) : Option Invocation :=
  match gather {} {} (items programSwitches true arguments) with
  | .misuse => none
  | .all _ => none
  | .help => some { command := .help }
  | .version => some { command := .version }
  | .command before name rest =>
    if name == "help" then if isTopic rest then some { command := .help } else none
    else
      (forms.find? fun form => form.name == name).bind fun form =>
        match gather form.places {} (items (form.switches ++ generalSwitches) false rest) with
        | .all after => do
          let before ← before
          let command ← form.command? after
          let catalog ←
            catalog? (before.operand? "catalog") (after.operand? "catalog") environment
          return { catalog, command }
        | .help => some { command := .help }
        | _ => none

end CommandLine

end PromptSheet
