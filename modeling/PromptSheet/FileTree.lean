import PromptSheet.Text.FileName

/-!
Files as a value. A tree lists its entries under their places, each a list of names from the root;
the directories on the way to an entry are there with it. Looking up a path follows the rules of
slash-separated paths: a path that starts with a slash starts at the root and every other one at
home, empty components and `.` stay where they are, `..` goes up, and all but the last component
must be directories.
-/

namespace PromptSheet

inductive Entry where
  | text (content : String)
  /-- A file that is no text. -/
  | binary
  | directory
deriving DecidableEq, Repr

structure FileTree where
  entries : List (List String × Entry) := []
  /-- The directory in which relative paths start. -/
  home : List String := []

namespace FileTree

def components (path : String) : List String :=
  (Text.splitOn '/' path.toList).map String.ofList

/-- The entry at a place. A directory may be known only by what is in it. -/
def find? (files : FileTree) (place : List String) : Option Entry :=
  if place.isPrefixOf files.home then some .directory
  else
    match files.entries.lookup place with
    | some entry => some entry
    | none =>
      if files.entries.any fun entry => place.isPrefixOf entry.1 then some .directory else none

def isDirectoryAt (files : FileTree) (place : List String) : Bool :=
  files.find? place == some .directory

/-- The place that some components lead to. The place itself need not exist, but the way to it must.
Above the root there is only the root. -/
def walk? (files : FileTree) : List String → List String → Option (List String)
  | place, [] => some place
  | place, name :: rest =>
    if !files.isDirectoryAt place then none
    else if name.isEmpty || name == "." then files.walk? place rest
    else if name == ".." then files.walk? place.dropLast rest
    else files.walk? (place ++ [name]) rest

def pathLimit : Nat := 4096

def nameLimit : Nat := 255

/-- The empty path leads nowhere, and neither does one that is too long. -/
def place? (files : FileTree) (path : String) : Option (List String) :=
  if path.isEmpty || pathLimit ≤ path.utf8ByteSize then none
  else files.walk? (if path.toList.head? = some '/' then [] else files.home) (components path)

def get? (files : FileTree) (path : String) : Option Entry :=
  (files.place? path).bind files.find?

def has (files : FileTree) (path : String) : Bool :=
  (files.get? path).isSome

def isDirectory (files : FileTree) (path : String) : Bool :=
  files.get? path == some .directory

def isFile (files : FileTree) (path : String) : Bool :=
  match files.get? path with
  | some (.text _) => true
  | some .binary => true
  | _ => false

def readText? (files : FileTree) (path : String) : Option String :=
  match files.get? path with
  | some (.text content) => some content
  | _ => none

def put (files : FileTree) (place : List String) (entry : Entry) : FileTree :=
  { files with entries := (place, entry) :: files.entries.filter fun old => old.1 != place }

/-- Puts an entry under a path from home, whether or not there is a way to it. -/
def add (files : FileTree) (path : String) (entry : Entry) : FileTree :=
  files.put (files.home ++ (Text.pathComponents path).map String.ofList) entry

def hasShortName (place : List String) : Bool :=
  place.getLast?.all fun name => name.utf8ByteSize ≤ nameLimit

/-- Writes a file; its directory must be there, and nothing but a file may stand in its place. -/
def write? (files : FileTree) (path content : String) : Option FileTree :=
  (files.place? path).bind fun place =>
    if files.isDirectoryAt place || !files.isDirectoryAt place.dropLast then none
    else if !hasShortName place then none
    else some (files.put place (.text content))

/-- A path inside a directory. An absolute path stands for itself. -/
def join (directory path : String) : String :=
  if path.toList.head? = some '/' || directory.isEmpty then path
  else if directory.toList.getLast? = some '/' then directory ++ path
  else directory ++ "/" ++ path

/-- Where the way down to an entry ends when the directories on it are opened one after the other. A
directory with a path that is too long cannot be told from a file. -/
def listedWay? (directory : String) (entry : Entry) (above : List String) :
    List String → Option (List String)
  | [] => if entry = .directory then none else some above
  | name :: rest =>
    let way := above ++ [name]
    if pathLimit ≤ (join directory ("/".intercalate way)).utf8ByteSize then some way
    else listedWay? directory entry way rest

/-- The ways from a directory to the files in it and in the directories below it. -/
def filesBelow (files : FileTree) (directory : String) : List (List String) :=
  match files.place? directory with
  | none => []
  | some place =>
    ((files.home, Entry.directory) :: files.entries).filterMap fun entry =>
      if place.isPrefixOf entry.1 && place.length < entry.1.length then
        listedWay? directory entry.2 [] (entry.1.drop place.length)
      else none

end FileTree

end PromptSheet
