import PromptSheet.Document.Value
import PromptSheet.Proofs.Paths

/-!
# Data of documents as values

A catalog brings its values in YAML and a caller in JSON, and each kind of document is read by its
own recursion. What both of them can hold is a tree of texts, flags, whole numbers, lists and objects,
and it becomes the same value from either. Of a list the objects are left, at every depth; all else
is kept, so a value that is written as such a tree is read as itself.
-/

namespace PromptSheet

namespace Dict

variable {α β : Type} {dict : Dict α}

theorem map_insertEntry (f : α → β) (key : String) (value : α) (entries : List (String × α)) :
    (insertEntry key value entries).map (fun entry => (entry.1, f entry.2)) =
      insertEntry key (f value) (entries.map fun entry => (entry.1, f entry.2)) := by
  induction entries with
  | nil => rfl
  | cons entry rest ih =>
      rw [insertEntry, List.map_cons, insertEntry, apply_ite (List.map _), apply_ite (List.map _),
        List.map_cons, List.map_cons, List.map_cons, List.map_cons, ih]

theorem entries_insertAll_map (f : α → β) {other : Dict β}
    (h : other.entries = dict.entries.map fun entry => (entry.1, f entry.2))
    (entries : List (String × α)) :
    (other.insertAll (entries.map fun entry => (entry.1, f entry.2))).entries =
      (dict.insertAll entries).entries.map fun entry => (entry.1, f entry.2) := by
  induction entries generalizing dict other with
  | nil => exact h
  | cons entry rest ih =>
      apply ih
      rw [entries_insert, entries_insert, map_insertEntry, h]

theorem entries_ofList_map (f : α → β) (entries : List (String × α)) :
    (ofList (entries.map fun entry => (entry.1, f entry.2))).entries =
      (ofList entries).entries.map fun entry => (entry.1, f entry.2) :=
  entries_insertAll_map f rfl entries

theorem insertEntry_of_forall_lt {entries : List (String × α)} {key : String}
    (h : ∀ entry ∈ entries, entry.1 < key) (value : α) :
    insertEntry key value entries = entries ++ [(key, value)] := by
  induction entries with
  | nil => rfl
  | cons entry rest ih =>
      obtain ⟨hentry, hrest⟩ := List.forall_mem_cons.1 h
      have hne : key ≠ entry.1 := fun heq => String.lt_irrefl key (heq ▸ hentry)
      rw [insertEntry, if_neg hne, if_neg (String.lt_asymm hentry), ih hrest, List.cons_append]

theorem entries_insertAll_of_isSorted {entries : List (String × α)}
    (h : IsSorted (dict.entries ++ entries)) :
    (dict.insertAll entries).entries = dict.entries ++ entries := by
  induction entries generalizing dict with
  | nil => exact (List.append_nil _).symm
  | cons entry rest ih =>
      have hfront : ∀ first ∈ dict.entries, first.1 < entry.1 := fun first hfirst =>
        (List.pairwise_append.1 h).2.2 first hfirst entry List.mem_cons_self
      have hinsert : (dict.insert entry.1 entry.2).entries = dict.entries ++ [entry] :=
        (entries_insert dict _ _).trans (insertEntry_of_forall_lt hfront entry.2)
      rw [List.append_cons, ← hinsert] at h
      rw [List.append_cons, ← hinsert]
      exact ih h

/-- A dictionary is its entries, put in one by one. -/
theorem ofList_entries (dict : Dict α) : ofList dict.entries = dict :=
  Dict.ext (entries_insertAll_of_isSorted dict.isSorted)

end Dict

/-- What both kinds of documents can hold: all but nulls and reals. -/
inductive Data where
  | text (content : String)
  | flag (on : Bool)
  | number (n : Int)
  | list (items : List Data)
  | object (members : List (String × Data))

namespace Data

mutual

def toYaml : Data → Yaml.Value
  | .text content => .text content
  | .flag on => .flag on
  | .number n => .number (.whole n)
  | .list items => .list (toYamls items)
  | .object members => .table (toTable members)

def toYamls : List Data → List Yaml.Value
  | [] => []
  | item :: rest => toYaml item :: toYamls rest

def toTable : List (String × Data) → List (Yaml.Value × Yaml.Value)
  | [] => []
  | (name, value) :: rest => (.text name, toYaml value) :: toTable rest

end

mutual

def toJson : Data → Json
  | .text content => .text content
  | .flag on => .flag on
  | .number n => .number (.whole n)
  | .list items => .list (toJsons items)
  | .object members => .object (toMembers members)

def toJsons : List Data → List Json
  | [] => []
  | item :: rest => toJson item :: toJsons rest

def toMembers : List (String × Data) → List (String × Json)
  | [] => []
  | (name, value) :: rest => (name, toJson value) :: toMembers rest

end

mutual

/-- What the data stands for: a number that does not fit is its decimal, and a list is that of its
objects. -/
def value : Data → Value
  | .text content => .text content
  | .flag on => .flag on
  | .number n => if -Int.pow 2 63 ≤ n ∧ n < Int.pow 2 63 then .number n else .text (toString n)
  | .list items => .list (records items)
  | .object members => .record (Dict.ofList (entries members))

def records : List Data → List Record
  | [] => []
  | .object members :: rest => Dict.ofList (entries members) :: records rest
  | _ :: rest => records rest

def entries : List (String × Data) → List (String × Value)
  | [] => []
  | (name, data) :: rest => (name, value data) :: entries rest

end

theorem toValue_whole (n : Int) (style : ExponentStyle) :
    (Number.whole n).toValue style = (Data.number n).value :=
  rfl

mutual

theorem toValue_toYaml (data : Data) : data.toYaml.toValue = data.value := by
  cases data with
  | text content => rfl
  | flag on => rfl
  | number n => exact toValue_whole n _
  | list items => rw [toYaml, Yaml.Value.toValue, toRecords_toYamls, value]
  | object members => rw [toYaml, Yaml.Value.toValue, toEntries_toTable, value]

theorem toRecords_toYamls (items : List Data) :
    Yaml.Value.toRecords (toYamls items) = records items := by
  cases items with
  | nil => rfl
  | cons item rest =>
      have hrest := toRecords_toYamls rest
      cases item with
      | object members =>
          rw [toYamls, toYaml, Yaml.Value.toRecords, Yaml.Value.toRecord?, toEntries_toTable, hrest]
          rfl
      | _ => exact hrest

theorem toEntries_toTable (members : List (String × Data)) :
    Yaml.Value.toEntries (toTable members) = entries members := by
  cases members with
  | nil => rfl
  | cons member rest =>
      obtain ⟨name, data⟩ := member
      rw [toTable, Yaml.Value.toEntries, entries, toValue_toYaml data, toEntries_toTable rest]
      rfl

end

/-- No member is left out. -/
theorem recordOf_map_some (fields : List (String × Value)) :
    Json.recordOf (fields.map fun entry => (entry.1, some entry.2)) = Dict.ofList fields := by
  ext1
  rw [Json.recordOf, Dict.entries_filterMap, Dict.entries_ofList_map, List.filterMap_map]
  exact List.filterMap_some

mutual

theorem toValue?_toJson (data : Data) : data.toJson.toValue? = some data.value := by
  cases data with
  | text content => rfl
  | flag on => rfl
  | number n => exact congrArg some (toValue_whole n _)
  | list items => rw [toJson, Json.toValue?, toRecords_toJsons, value]
  | object members =>
      rw [toJson, Json.toValue?, toMembers_toMembers, recordOf_map_some, value]

theorem toRecords_toJsons (items : List Data) : Json.toRecords (toJsons items) = records items := by
  cases items with
  | nil => rfl
  | cons item rest =>
      have hrest := toRecords_toJsons rest
      cases item with
      | object members =>
          rw [toJsons, toJson, Json.toRecords, toMembers_toMembers, recordOf_map_some, hrest]
          rfl
      | _ => exact hrest

theorem toMembers_toMembers (members : List (String × Data)) :
    Json.toMembers (toMembers members) =
      (entries members).map fun entry => (entry.1, some entry.2) := by
  cases members with
  | nil => rfl
  | cons member rest =>
      obtain ⟨name, data⟩ := member
      rw [toMembers, Json.toMembers, entries, toValue?_toJson data, toMembers_toMembers rest,
        List.map_cons]

end

end Data

namespace Value

mutual

/-- Records as objects, and lists as lists of objects. -/
def toData : Value → Data
  | .text content => .text content
  | .flag on => .flag on
  | .number n => .number n
  | .record fields => .object (toMembers fields.chain)
  | .list items => .list (toObjects items)

def toMembers {bound : Option String} : Dict.Chain Value bound → List (String × Data)
  | .nil => []
  | .cons name value _ rest => (name, toData value) :: toMembers rest

def toObjects : List Record → List Data
  | [] => []
  | fields :: rest => .object (toMembers fields.chain) :: toObjects rest

end

def IsInRange : Value → Prop
  | .number n => -Int.pow 2 63 ≤ n ∧ n < Int.pow 2 63
  | _ => True

end Value

def Record.IsProper (fields : Record) : Prop :=
  ∀ entry ∈ fields.entries, entry.2.IsInRange

namespace Value

/-- The numbers in the value, however deep, fit in 64 bits. -/
structure IsProper (value : Value) : Prop where
  inRange : value.IsInRange
  everywhere : value.Everywhere Record.IsProper

theorem forall_isProper {fields : Record} (h : Record.Everywhere Record.IsProper fields) :
    ∀ entry ∈ fields.entries, entry.2.IsProper := by
  cases h with
  | intro here inside => exact fun entry hentry => ⟨here entry hentry, inside entry hentry⟩

mutual

theorem value_toData {value : Value} (h : value.IsProper) : value.toData.value = value := by
  cases value with
  | text content => rfl
  | flag on => rfl
  | number n =>
      have hrange : -Int.pow 2 63 ≤ n ∧ n < Int.pow 2 63 := h.inRange
      rw [toData, Data.value, if_pos hrange]
  | record fields =>
      have hmembers := entries_toMembers fields.chain (forall_isProper h.everywhere.of_record)
      rw [toData, Data.value, hmembers]
      exact congrArg Value.record fields.ofList_entries
  | list items => rw [toData, Data.value, records_toObjects h.everywhere.of_list]

theorem entries_toMembers {bound : Option String} (chain : Dict.Chain Value bound)
    (h : ∀ entry ∈ chain.entries, entry.2.IsProper) :
    Data.entries (toMembers chain) = chain.entries := by
  cases chain with
  | nil => rfl
  | cons name value above rest =>
      obtain ⟨hvalue, hrest⟩ := List.forall_mem_cons.1 h
      rw [toMembers, Data.entries, value_toData hvalue, entries_toMembers rest hrest]
      rfl

theorem records_toObjects {items : List Record}
    (h : ∀ item ∈ items, Record.Everywhere Record.IsProper item) :
    Data.records (toObjects items) = items := by
  cases items with
  | nil => rfl
  | cons item rest =>
      obtain ⟨hitem, hrest⟩ := List.forall_mem_cons.1 h
      have hmembers := entries_toMembers item.chain (forall_isProper hitem)
      rw [toObjects, Data.records, hmembers, records_toObjects hrest]
      exact congrArg (· :: rest) item.ofList_entries

end

end Value

/-- **Both kinds of documents say the same.** Data becomes one value from either form, and from
either form of its own data a value becomes itself. -/
theorem toValue_data :
    (∀ data : Data, data.toYaml.toValue = data.value ∧ data.toJson.toValue? = some data.value) ∧
      ∀ value : Value, value.IsProper →
        value.toData.toYaml.toValue = value ∧ value.toData.toJson.toValue? = some value := by
  refine ⟨fun data => ⟨data.toValue_toYaml, data.toValue?_toJson⟩, fun value hvalue => ?_⟩
  rw [Data.toValue_toYaml, Data.toValue?_toJson, Value.value_toData hvalue]
  exact ⟨rfl, rfl⟩

/-- A list of records beside the least number. -/
theorem toValue_data_shots :
    let shots : Value := .record (.ofList
      [("shots", .list [.ofList [("scene", .text "dawn")], .empty]),
       ("length", .number (-Int.pow 2 63))])
    shots.IsProper ∧ shots.toData.toYaml.toValue = shots ∧
      shots.toData.toJson.toValue? = some shots := by
  intro shots
  have hdawn : Record.Everywhere Record.IsProper (.ofList [("scene", .text "dawn")]) :=
    .intro (List.forall_mem_singleton.2 trivial) (List.forall_mem_singleton.2 (.text "dawn"))
  have hempty : Record.Everywhere Record.IsProper .empty :=
    .intro (List.forall_mem_nil _) (List.forall_mem_nil _)
  have hlist : (Value.list [.ofList [("scene", .text "dawn")], .empty]).Everywhere
      Record.IsProper :=
    .list (List.forall_mem_cons.2 ⟨hdawn, List.forall_mem_singleton.2 hempty⟩)
  have hleast : (Value.number (-Int.pow 2 63)).IsInRange := ⟨Int.le_refl _, by decide⟩
  have hproper : shots.IsProper := by
    refine ⟨trivial, .record (.intro ?_ ?_)⟩
    · exact List.forall_mem_cons.2 ⟨hleast, List.forall_mem_singleton.2 trivial⟩
    · exact List.forall_mem_cons.2 ⟨.number _, List.forall_mem_singleton.2 hlist⟩
  exact ⟨hproper, toValue_data.2 shots hproper⟩

end PromptSheet
