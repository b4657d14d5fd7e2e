import PromptSheet.CommandLine.Report

/-!
The program. It takes a view of the files that its command may ask for, has the command answered on
that view, and then prints or writes what comes of it.
-/

namespace PromptSheet.Program

def filePaths (invocation : Invocation) : List String :=
  let catalog :=
    match (invocation.catalog.map Catalog.Source.directory).getD .bundled with
    | .files master selection => [master, selection]
    | _ => []
  match invocation.command with
  | .generate options => catalog ++ options.statePath.toList
  | .sections _ => catalog
  | .check => catalog
  | .render options => options.valuesPath.toList
  | _ => []

def directoryPaths (invocation : Invocation) : List String :=
  match invocation.command with
  | .render options => options.directories
  | _ => []

/-- A file that cannot be read is no text. -/
def fileEntry (path : String) : IO Entry := do
  try
    let bytes ← IO.FS.readBinFile path
    return ((String.fromUTF8? bytes).map Entry.text).getD .binary
  catch _ => return .binary

def entryAt (path : String) : IO (Option Entry) := do
  try
    let found ← IO.FS.realPath path
    if ← found.isDir then return some .directory
    return some (← fileEntry found.toString)
  catch _ => return none

/-- Adds what stands on the way to a path and at its end. -/
def addPath (files : FileTree) (path : String) : IO (FileTree × List String) := do
  let mut files := files
  let mut place := if path.toList.head? = some '/' then [] else files.home
  let mut walked := if path.toList.head? = some '/' then "/" else ""
  for name in FileTree.components path do
    if !name.isEmpty && name != "." then
      walked := FileTree.join walked name
      place := if name == ".." then place.dropLast else place ++ [name]
      match ← entryAt walked with
      | some entry => files := files.put place entry
      | none => pure ()
  return (files, place)

partial def addBelow (files : FileTree) (path : String) (place : List String) : IO FileTree := do
  try
    let mut files := files
    for child in ← (← IO.FS.realPath path).readDir do
      let childPath := FileTree.join path child.fileName
      let childPlace := place ++ [child.fileName]
      match ← entryAt childPath with
      | some .directory =>
        files ← addBelow (files.put childPlace .directory) childPath childPlace
      | some entry => files := files.put childPlace entry
      | none => pure ()
    return files
  catch _ => return files

def view (invocation : Invocation) : IO FileTree := do
  let here ← IO.currentDir
  let home := (FileTree.components here.toString).filter fun name => !name.isEmpty
  let mut files : FileTree := { home }
  for path in filePaths invocation do
    files := (← addPath files path).1
  for path in directoryPaths invocation do
    let (added, place) ← addPath files path
    files ← addBelow added path place
  return files

def deliver (report : Report) : IO UInt32 := do
  (← IO.getStdout).putStr report.stdout
  (← IO.getStderr).putStr report.stderr
  return report.code.toUInt32

end PromptSheet.Program

open PromptSheet in
def main (arguments : List String) : IO UInt32 := do
  let environment ← IO.getEnv "PROMPTSMITH_CATALOG"
  match CommandLine.read? environment arguments with
  | none => Program.deliver .misuse
  | some invocation =>
    match invocation.ending (← Program.view invocation) with
    | .done report => Program.deliver report
    | .write path content =>
      try
        IO.FS.writeFile path content
        Program.deliver {}
      catch _ => Program.deliver (.ofFailure (.unwritable path))
