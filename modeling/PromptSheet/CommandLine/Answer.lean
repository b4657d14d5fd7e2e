import PromptSheet.CommandLine.Command
import PromptSheet.Engine
import PromptSheet.Json.Text
import PromptSheet.Library
import PromptSheet.State.Codec

/-!
What a command answers. An answer is found without changing anything. What goes wrong is a chain of
causes, the outermost first.
-/

namespace PromptSheet

inductive TextFormat where
  | json
  | yaml
deriving DecidableEq, Repr

def TextFormat.ofPath (path : String) : TextFormat :=
  if Text.extension? path = some "json" then .json else .yaml

def TextFormat.name : TextFormat → String
  | .json => "JSON"
  | .yaml => "YAML"

inductive Failure where
  | generate (kind : Kind) (cause : Error)
  | library (cause : Error)
  | unknownSelectionKey (key : String)
  | unreadable (path : String)
  | invalid (format : TextFormat) (path : String)
  | noTable (path : String)
  | unwritable (path : String)
deriving DecidableEq, Repr

namespace Failure

def chain : Failure → List String
  | .generate kind cause => ("failed to generate " ++ kind.name) :: cause.chain
  | .library cause => cause.chain
  | .unknownSelectionKey key => ["unknown selection key: " ++ key]
  | .unreadable path => ["failed to read " ++ path]
  | .invalid format path => ["invalid " ++ format.name ++ " in " ++ path]
  | .noTable path => [path ++ " must hold a mapping"]
  | .unwritable path => ["failed to write " ++ path]

def message (failure : Failure) : String :=
  "Error: " ++ ": ".intercalate failure.chain

end Failure

inductive Answer where
  /-- A document and the file that it goes to, if it is not shown. -/
  | document (text : String) (path : Option String)
  | lines (texts : List String)
  | issues (found : List Issue)
deriving DecidableEq, Repr

def readState (files : FileTree) (path : String) : Except Failure State :=
  match files.readText? path with
  | none => .error (.unreadable path)
  | some text =>
    let state? :=
      match TextFormat.ofPath path with
      | .json => (Json.ofText? text).bind State.codec.ofJson?
      | .yaml => (Yaml.Document.read? text).bind (·.readWith? (State.codec.read Yaml.Place.format))
    match state? with
    | some state => .ok state
    | none => .error (.invalid (TextFormat.ofPath path) path)

/-- The values in a document; a document without any content holds none. -/
def storeOf? : Json → Option Store
  | .null => some {}
  | .object members => some (Store.ofRecord (Json.recordOf (Json.toMembers members)))
  | _ => none

def readStore (files : FileTree) (path : String) : Except Failure Store :=
  match files.readText? path with
  | none => .error (.unreadable path)
  | some text =>
    let data? :=
      match TextFormat.ofPath path with
      | .json => Json.dataOfText? text
      | .yaml => (Yaml.Document.read? text).bind Yaml.Document.json?
    match data? with
    | none => .error (.invalid (TextFormat.ofPath path) path)
    | some data =>
      match storeOf? data with
      | some store => .ok store
      | none => .error (.noTable path)

namespace Answer

def engine (catalog : Option String) (prunes : Bool) : Engine :=
  { source := (catalog.map Catalog.Source.directory).getD .bundled
    settings := { prunes } }

def ofGenerate (files : FileTree) (catalog : Option String) (options : GenerateOptions) :
    Except Failure Answer := do
  let state ← (options.statePath.map (readState files)).getD (.ok {})
  let key := options.key.getD (options.kind.selectionKey state)
  let outcome := ((engine catalog options.prunes).generateForKey files options.kind key state).1
  match outcome.result with
  | .ok text => .ok (.document text options.outputPath)
  | .error e => .error (.generate options.kind e)

def numbered (entry : String × Nat) : String :=
  toString (entry.2 + 1) ++ ". " ++ entry.1

def ofSections (files : FileTree) (catalog : Option String) (key : String) :
    Except Failure Answer :=
  match ((engine catalog false).sections files key).1.result with
  | .error e => .error (.library e)
  | .ok [] => .error (.unknownSelectionKey key)
  | .ok names => .ok (.lines (names.zipIdx.map numbered))

def kindLine (kind : Kind) : String :=
  kind.name ++ ": " ++ ", ".intercalate kind.selectionKeys

def praise (catalog : Catalog) : String :=
  "catalog OK: " ++ toString catalog.outputTypes.length ++ " output types, " ++
    toString catalog.selectionKeys.length ++ " selection keys"

def ofCheck (files : FileTree) (catalog : Option String) : Except Failure Answer :=
  let engine := engine catalog false
  match engine.catalog files with
  | .error e => .error (.library e)
  | .ok found =>
    match found.issues engine.settings.optional with
    | [] => .ok (.lines [praise found])
    | first :: rest => .ok (.issues (first :: rest))

/-- All directories are looked at before the values are read. -/
def ofRender (files : FileTree) (options : RenderOptions) : Except Failure Answer := do
  let library ←
    (options.directories.foldlM (fun library path => Library.addDirectory library files path)
      ({} : Library)).mapError Failure.library
  let store ← (options.valuesPath.map (readStore files)).getD (.ok {})
  match (library.render files options.name store).result with
  | .ok text => .ok (.document text none)
  | .error e => .error (.library e)

def versionLine : String :=
  "promptsmith 0.3.0"

def usageLines : List String :=
  ["Usage: promptsmith [OPTIONS] <COMMAND>",
   "",
   "Commands: " ++ ", ".intercalate (CommandLine.forms.map CommandLine.Form.name)]

end Answer

def Invocation.answer (files : FileTree) (invocation : Invocation) : Except Failure Answer :=
  match invocation.command with
  | .generate options => Answer.ofGenerate files invocation.catalog options
  | .sections key => Answer.ofSections files invocation.catalog key
  | .kinds => .ok (.lines (Kind.all.map Answer.kindLine))
  | .check => Answer.ofCheck files invocation.catalog
  | .render options => Answer.ofRender files options
  | .version => .ok (.lines [Answer.versionLine])
  | .help => .ok (.lines Answer.usageLines)

end PromptSheet
