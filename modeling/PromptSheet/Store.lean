import PromptSheet.Text.Line
import PromptSheet.Value

/-!
The store a template is rendered against: named values and the number of loops around the place
being rendered. A name is looked up as it stands first; only when it has no binding of its own is it
read as a path whose segments, parted by dots, walk through records and lists.
-/

namespace PromptSheet

def segments (path : String) : List String :=
  (Text.splitOn '.' path.toList).map String.ofList

/-- The number that a segment reads as: digits, with at most one plus sign before them. -/
def index? (segment : String) : Option Nat :=
  let digits :=
    match segment.toList with
    | '+' :: rest => rest
    | all => all
  if digits.isEmpty || !digits.all Char.isDigit then none
  else some (digits.foldl (fun n d => 10 * n + (d.toNat - '0'.toNat)) 0)

namespace Value

/-- Walks down from a value. A list is entered by a position and then a field of the record found
there, so a position alone leads nowhere. -/
def walk : List String → Value → Option Value
  | [], value => some value
  | segment :: rest, .record fields => (fields.get? segment).bind (walk rest)
  | segment :: field :: rest, .list items =>
    (index? segment).bind fun i => items[i]?.bind fun item => (item.get? field).bind (walk rest)
  | _, _ => none

end Value

structure Store where
  bindings : Record := {}
  loopDepth : Nat := 0

namespace Store

def indexName : String := "@index"

def placeName : String := "@index_1"

instance : Inhabited Store := ⟨{}⟩

def ofRecord (fields : Record) : Store :=
  { bindings := fields }

def ofList (entries : List (String × Value)) : Store :=
  ofRecord (Dict.ofList entries)

def set (store : Store) (name : String) (value : Value) : Store :=
  { store with bindings := store.bindings.insert name value }

def setAll (store : Store) (entries : List (String × Value)) : Store :=
  { store with bindings := store.bindings.insertAll entries }

def erase (store : Store) (name : String) : Store :=
  { store with bindings := store.bindings.erase name }

def walk (store : Store) : List String → Option Value
  | [] => none
  | segment :: rest => (store.bindings.get? segment).bind (Value.walk rest)

/-- The binding of this very name, else the value that the name leads to as a path. -/
def get? (store : Store) (name : String) : Option Value :=
  match store.bindings.get? name with
  | some value => some value
  | none => if name.toList.contains '.' then store.walk (segments name) else none

def getText? (store : Store) (name : String) : Option String :=
  (store.get? name).bind Value.asText?

def getFlag? (store : Store) (name : String) : Option Bool :=
  (store.get? name).bind Value.asFlag?

def getList? (store : Store) (name : String) : Option (List Record) :=
  (store.get? name).bind Value.asList?

/-- A name that leads nowhere is false. -/
def holds (store : Store) (name : String) : Bool :=
  ((store.get? name).map Value.isTruthy).getD false

/-- Whether this very name is bound, whatever its value. -/
def isBound (store : Store) (name : String) : Bool :=
  store.bindings.contains name

def mergeMissing (store other : Store) : Store :=
  { store with bindings := store.bindings.mergeMissing other.bindings }

/-- The store inside a loop: the fields of the item in hand and its two positions, counted from zero
and from one, hide what was bound before. -/
def child (store : Store) (item : Record) (i : Nat) : Store :=
  { bindings :=
      ((store.bindings.insertAll item.entries).insert indexName (.ofCount i)).insert placeName
        (.ofCount (i + 1))
    loopDepth := store.loopDepth + 1 }

section Read

variable {store : Store} {name : String}

theorem getText?_eq_some_iff {content : String} :
    store.getText? name = some content ↔ store.get? name = some (.text content) := by
  simp [getText?, Option.bind_eq_some_iff, Value.asText?_eq_some_iff]

theorem getList?_eq_some_iff {items : List Record} :
    store.getList? name = some items ↔ store.get? name = some (.list items) := by
  simp [getList?, Option.bind_eq_some_iff, Value.asList?_eq_some_iff]

end Read

end Store

end PromptSheet
