import PromptSheet.Dict
import PromptSheet.Document.Format

/-!
Reading records, lists and tables from a document of any format. A field that a document leaves out
keeps the value it has in the blank record; a field it gives twice is an error; one that the record
does not have is passed over unread, and references in it are not followed. In a table the last of
two entries with one key stays.
-/

namespace PromptSheet

abbrev Slots (δ σ : Type) :=
  List (String × (δ → σ → Reading σ))

namespace Format

variable {δ α σ : Type}

def readText (format : Format δ) (node : δ) : Reading String := do
  format.text? (← format.settle node)

def readFlag (format : Format δ) (node : δ) : Reading Bool := do
  format.flag? (← format.settle node)

def readChoice (format : Format δ) (node : δ) : Reading String := do
  format.choice? (← format.settle node)

def readOptional (format : Format δ) (read : δ → Reading α) (node : δ) : Reading (Option α) := do
  let node ← format.settle node
  if ← format.absent? node then return none
  else return some (← read node)

def readList (format : Format δ) (read : δ → Reading α) (node : δ) : Reading (List α) := do
  let items ← format.items? (← format.settle node)
  items.mapM read

def readTable (format : Format δ) (read : δ → Reading α) (node : δ) : Reading (Dict α) := do
  match ← format.members (← format.settle node) with
  | .named entries =>
    return Dict.ofList (← entries.mapM fun entry => return (entry.1, ← read entry.2))
  | .placed _ => failure

/-- Reads named members one after the other into a record; `seen` holds the fields met so far. -/
def readNamed (slots : Slots δ σ) : List String → σ → List (String × δ) → Reading σ
  | _, record, [] => return record
  | seen, record, (name, node) :: rest =>
    match slots.lookup name with
    | none => readNamed slots seen record rest
    | some read =>
      if seen.contains name then failure
      else do readNamed slots (name :: seen) (← read node record) rest

/-- Reads members by their place; there may be fewer than fields, but not more. -/
def readPlaced : Slots δ σ → σ → List δ → Reading σ
  | _, record, [] => return record
  | [], _, _ :: _ => failure
  | (_, read) :: slots, record, node :: rest => do readPlaced slots (← read node record) rest

def readRecord (format : Format δ) (slots : Slots δ σ) (blank : σ) (node : δ) : Reading σ := do
  match ← format.members (← format.settle node) with
  | .named entries => readNamed slots [] blank entries
  | .placed items => readPlaced slots blank items

def slot (name : String) (read : δ → Reading α) (set : α → σ → σ) : String × (δ → σ → Reading σ) :=
  (name, fun node record => return set (← read node) record)

end Format

end PromptSheet
