import PromptSheet.Assembly
import PromptSheet.FileTree

/-!
Templates that stand alone, each a document of its own. A template is given as a text or found as a
file in one of several directories; it may be named with or without the ending of its file. Files
are read when they are needed, so the library always shows them as they are.
-/

namespace PromptSheet

structure Library where
  texts : Dict String := {}
  /-- The directories, in the order of the search. -/
  directories : List String := []
  prunes : Bool := true
  limit : Nat := 10

namespace Library

def endings : List String :=
  [".yaml", ".yml"]

def dropEnding? (ending name : String) : Option String :=
  if ending.toList.isSuffixOf name.toList then
    some (String.ofList (name.toList.take (name.toList.length - ending.toList.length)))
  else none

def templateName? (fileName : String) : Option String :=
  endings.findSome? fun ending => dropEnding? ending fileName

def baseName (name : String) : String :=
  (templateName? name).getD name

def addText (library : Library) (name text : String) : Library :=
  { library with texts := library.texts.insert name text }

def addDirectory (library : Library) (files : FileTree) (path : String) : Except Error Library :=
  if files.isDirectory path then
    .ok { library with directories := library.directories ++ [path] }
  else .error (.fileNotFound path)

def text? (library : Library) (name : String) : Option String :=
  match library.texts.get? name with
  | some text => some text
  | none => library.texts.get? (baseName name)

/-- The files that a name can stand for. A name with an ending is the name of a file. -/
def candidates (name : String) : List String :=
  if (templateName? name).isSome then [name] else endings.map (name ++ ·)

def file? (library : Library) (files : FileTree) (name : String) : Option String :=
  (library.directories.flatMap fun directory =>
    (candidates name).map (FileTree.join directory)).find? files.isFile

def get (library : Library) (files : FileTree) (name : String) : Except Error String :=
  match library.text? name with
  | some text => .ok text
  | none =>
    match library.file? files name with
    | none => .error (.templateNotFound name)
    | some path =>
      match files.readText? path with
      | some text => .ok text
      | none => .error (.unreadable path)

def listedName? (place : List String) : Option String :=
  place.getLast?.bind templateName? |>.map fun name => "/".intercalate (place.dropLast ++ [name])

def directoryNames (files : FileTree) (directory : String) : List String :=
  (files.filesBelow directory).filterMap listedName?

def names (library : Library) (files : FileTree) : List String :=
  (Dict.ofList ((library.texts.keys.map baseName ++
    library.directories.flatMap (directoryNames files)).map fun name => (name, ()))).keys

def inclusions (library : Library) (files : FileTree) (name : String) : Template.Found :=
  match library.get files name with
  | .ok text => .source text
  | .error (.templateNotFound _) => .missing
  | .error _ => .unreadable

/-- What an inclusion of a name finds, and what is said about a file that cannot be read. -/
def inclusion (library : Library) (files : FileTree) (name : String) :
    Logged Error (Option String) :=
  match library.inclusions files name with
  | .source text => .ofValue (some text)
  | .missing => .ofValue none
  | .unreadable => .warn (.templateUnreadable name) none

def render (library : Library) (files : FileTree) (name : String) (store : Store) : Outcome :=
  (Logged.ofExcept (library.get files name)).andThen fun text =>
    (renderTemplate { source := some (library.inclusions files), limit := library.limit } name text
      store).map fun document => if library.prunes then prune document else document

end Library

end PromptSheet
