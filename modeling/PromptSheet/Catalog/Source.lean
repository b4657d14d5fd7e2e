import PromptSheet.Catalog.Bundled
import PromptSheet.Catalog.Reading
import PromptSheet.FileTree

/-!
Where a catalog comes from. Both files of a catalog are read before either of the texts is looked
at.
-/

namespace PromptSheet

namespace Catalog

inductive Source where
  | bundled
  | texts (master selection : String)
  | files (master selection : String)
deriving DecidableEq, Repr

namespace Source

def directory (path : String) : Source :=
  .files (FileTree.join path CatalogDocument.master.fileName)
    (FileTree.join path CatalogDocument.selection.fileName)

end Source

def readFile (files : FileTree) (path : String) : Except Error String :=
  if files.has path then
    match files.readText? path with
    | some text => .ok text
    | none => .error (.unreadable path)
  else .error (.fileNotFound path)

def load (files : FileTree) : Source → Except Error Catalog
  | .bundled => .ok bundled
  | .texts master selection => read master selection
  | .files master selection => do
    let master ← readFile files master
    let selection ← readFile files selection
    read master selection

end Catalog

end PromptSheet
