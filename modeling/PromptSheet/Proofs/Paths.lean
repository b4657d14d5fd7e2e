import Mathlib.Data.List.TakeWhile
import PromptSheet.Proofs.DictLaws
import PromptSheet.Proofs.FilePlaces
import PromptSheet.Store

/-!
# Names that are read as paths

What a name leads to depends on two bindings of the store alone: that of the very name and that of its
root, the part before the first dot. Where no key holds a dot, no name with a dot is bound itself, so
every name is walked segment by segment, and a walk that goes on from another one goes on from whatever
that one led to. A list takes two segments, a position and a field, and so gives way to the record at
this position.

A loop lays the fields of a record over the store. A path that starts with one of these fields leads
there inside of the loop to what it leads to in the record, and thus to what the path through the list
leads to outside.
-/

namespace PromptSheet

variable {name : String}

/-- The part of a name before its first dot. -/
def root (name : String) : String :=
  String.ofList (name.toList.takeWhile (· != '.'))

theorem Text.exists_splitOn_eq (sep : Char) (s : List Char) :
    ∃ pieces, splitOn sep s = s.takeWhile (· != sep) :: pieces := by
  induction s with
  | nil => exact ⟨[], rfl⟩
  | cons c s ih =>
      obtain ⟨pieces, hpieces⟩ := ih
      by_cases hc : c = sep
      · exact ⟨splitOn sep s, by simp [splitOn, hc]⟩
      · exact ⟨pieces, by simp [splitOn, hc, hpieces]⟩

theorem exists_segments_eq (name : String) : ∃ rest, segments name = root name :: rest := by
  obtain ⟨pieces, hpieces⟩ := Text.exists_splitOn_eq '.' name.toList
  exact ⟨pieces.map String.ofList, by rw [segments, hpieces]; rfl⟩

theorem root_prefix (name : String) : (root name).toList <+: name.toList := by
  rw [root, String.toList_ofList]
  exact List.takeWhile_prefix _

theorem root_of_not_mem (h : '.' ∉ name.toList) : root name = name := by
  have hall : ∀ c ∈ name.toList, (c != '.') = true := by
    intro c hc
    rw [bne_iff_ne]
    rintro rfl
    exact h hc
  rw [root, List.takeWhile_eq_self_iff.2 hall, String.ofList_toList]

theorem segments_of_not_mem (h : '.' ∉ name.toList) : segments name = [name] := by
  rw [segments, Text.splitOn_eq, List.splitOn_eq_singleton h, List.map_singleton,
    String.ofList_toList]

theorem segments_append_dot (first second : String) :
    segments (first ++ "." ++ second) = segments first ++ segments second := by
  rw [segments, Text.splitOn_toList_append '.' rfl, List.map_append]
  rfl

mutual

/-- Every record in a value, however deep, has this property. -/
inductive Value.Everywhere (P : Record → Prop) : Value → Prop where
  | text (content : String) : Value.Everywhere P (.text content)
  | flag (on : Bool) : Value.Everywhere P (.flag on)
  | number (value : Int) : Value.Everywhere P (.number value)
  | record {fields : Record} (h : Record.Everywhere P fields) : Value.Everywhere P (.record fields)
  | list {items : List Record} (h : ∀ item ∈ items, Record.Everywhere P item) :
      Value.Everywhere P (.list items)

/-- A record has this property, and so has every record in it. -/
inductive Record.Everywhere (P : Record → Prop) : Record → Prop where
  | intro {fields : Record} (here : P fields)
      (inside : ∀ entry ∈ fields.entries, Value.Everywhere P entry.2) : Record.Everywhere P fields

end

section Everywhere

variable {P : Record → Prop} {fields : Record} {value found : Value} {path : List String}

theorem Record.Everywhere.here (h : Record.Everywhere P fields) : P fields := by
  cases h with
  | intro here inside => exact here

theorem Value.Everywhere.of_record (h : Value.Everywhere P (.record fields)) :
    Record.Everywhere P fields := by
  cases h with
  | record h => exact h

theorem Value.Everywhere.of_list {items : List Record} (h : Value.Everywhere P (.list items)) :
    ∀ item ∈ items, Record.Everywhere P item := by
  cases h with
  | list h => exact h

theorem Record.Everywhere.get? (h : Record.Everywhere P fields) {key : String}
    (hget : fields.get? key = some value) : value.Everywhere P := by
  cases h with
  | intro here inside => exact inside (key, value) (Dict.mem_of_find? hget)

theorem Value.Everywhere.walk {value : Value} {path : List String} (hvalue : value.Everywhere P)
    (h : value.walk path = some found) : found.Everywhere P := by
  match path, hvalue with
  | [], hvalue =>
      cases h
      exact hvalue
  | segment :: rest, .record hfields =>
      obtain ⟨next, hnext, hwalk⟩ := Option.bind_eq_some_iff.1 h
      exact (hfields.get? hnext).walk hwalk
  | segment :: field :: rest, .list hitems =>
      obtain ⟨i, -, hlist⟩ := Option.bind_eq_some_iff.1 h
      obtain ⟨item, hitem, hget⟩ := Option.bind_eq_some_iff.1 hlist
      obtain ⟨next, hnext, hwalk⟩ := Option.bind_eq_some_iff.1 hget
      exact ((hitems item (List.mem_of_getElem? hitem)).get? hnext).walk hwalk
  | [segment], .list _ => cases h
  | _ :: _, .text _ => cases h
  | _ :: _, .flag _ => cases h
  | _ :: _, .number _ => cases h

theorem Record.Everywhere.walk {store : Store} (hstore : Record.Everywhere P store.bindings)
    (h : store.walk path = some found) : found.Everywhere P := by
  cases path with
  | nil => cases h
  | cons segment rest =>
      obtain ⟨start, hstart, hwalk⟩ := Option.bind_eq_some_iff.1 h
      exact (hstore.get? hstart).walk hwalk

end Everywhere

theorem Value.walk_append {first second : List String} {value found : Value}
    (h : value.walk first = some found) : value.walk (first ++ second) = found.walk second := by
  match first, value with
  | [], value =>
      cases h
      rfl
  | segment :: rest, .record fields =>
      obtain ⟨next, hnext, hwalk⟩ := Option.bind_eq_some_iff.1 h
      rw [List.cons_append, Value.walk, hnext]
      exact walk_append hwalk
  | segment :: field :: rest, .list items =>
      obtain ⟨i, hi, hlist⟩ := Option.bind_eq_some_iff.1 h
      obtain ⟨item, hitem, hget⟩ := Option.bind_eq_some_iff.1 hlist
      obtain ⟨next, hnext, hwalk⟩ := Option.bind_eq_some_iff.1 hget
      rw [List.cons_append, List.cons_append, Value.walk, hi, Option.bind_some, hitem,
        Option.bind_some, hnext]
      exact walk_append hwalk
  | [segment], .list _ => cases h
  | _ :: _, .text _ => cases h
  | _ :: _, .flag _ => cases h
  | _ :: _, .number _ => cases h

namespace Store

variable {store other : Store} {p q : String} {value : Value}

theorem walk_append {first second : List String} (h : store.walk first = some value) :
    store.walk (first ++ second) = value.walk second := by
  cases first with
  | nil => cases h
  | cons segment rest =>
      obtain ⟨start, hstart, hwalk⟩ := Option.bind_eq_some_iff.1 h
      rw [List.cons_append, walk, hstart]
      exact Value.walk_append hwalk

/-- Only two bindings matter to a name. -/
theorem get?_congr (hname : store.bindings.get? name = other.bindings.get? name)
    (hroot : store.bindings.get? (root name) = other.bindings.get? (root name)) :
    store.get? name = other.get? name := by
  obtain ⟨rest, hsegments⟩ := exists_segments_eq name
  rw [Store.get?, Store.get?, hname, hsegments, walk, walk, hroot]

end Store

def Record.IsDotless (fields : Record) : Prop :=
  ∀ entry ∈ fields.entries, '.' ∉ entry.1.toList

instance (fields : Record) : Decidable (Record.IsDotless fields) :=
  List.decidableBAll _ fields.entries

namespace Record.IsDotless

variable {fields : Record} {key : String} {value : Value}

theorem insert (h : Record.IsDotless fields) (hkey : '.' ∉ key.toList) :
    Record.IsDotless (fields.insert key value) := by
  intro entry hentry
  rcases Dict.mem_insert hentry with rfl | hentry
  · exact hkey
  · exact h entry hentry

theorem insertAll {other : Record} (h : Record.IsDotless fields) (hother : Record.IsDotless other) :
    Record.IsDotless (fields.insertAll other.entries) :=
  fun entry hentry => (Dict.mem_insertAll hentry).elim (hother entry) (h entry)

theorem get?_eq_none (h : Record.IsDotless fields) (hkey : '.' ∈ key.toList) :
    fields.get? key = none := by
  cases hget : fields.get? key with
  | none => rfl
  | some value => exact absurd hkey (h (key, value) (Dict.mem_of_find? hget))

end Record.IsDotless

namespace Store

variable {store : Store} {fields item : Record} {items : List Record} {value : Value}
  {p q k : String} {i : Nat}

theorem get?_eq_walk (h : Record.IsDotless store.bindings) (name : String) :
    store.get? name = store.walk (segments name) := by
  by_cases hdot : '.' ∈ name.toList
  · rw [Store.get?, h.get?_eq_none hdot]
    exact if_pos (List.contains_iff_mem.2 hdot)
  · have hplain : ¬name.toList.contains '.' = true := fun hmem => hdot (List.contains_iff_mem.1 hmem)
    rw [Store.get?, segments_of_not_mem hdot, walk]
    cases store.bindings.get? name with
    | none => exact if_neg hplain
    | some value => rfl

/-- A name that goes on from another one goes on from what that one led to. -/
theorem get?_append_dot (h : Record.IsDotless store.bindings) (hp : store.get? p = some value)
    (q : String) : store.get? (p ++ "." ++ q) = value.walk (segments q) := by
  rw [get?_eq_walk h] at hp
  rw [get?_eq_walk h, segments_append_dot, walk_append hp]

theorem walk_segments_record (h : Record.IsDotless fields) (q : String) :
    (Value.record fields).walk (segments q) = (Store.ofRecord fields).get? q := by
  obtain ⟨rest, hsegments⟩ := exists_segments_eq q
  rw [get?_eq_walk h, hsegments]
  rfl

/-- Through a list a path leads over a position to a record, and on from there. -/
theorem get?_append_position (h : Record.IsDotless store.bindings)
    (hitems : ∀ item ∈ items, Record.IsDotless item) (hp : store.get? p = some (.list items))
    (hk : '.' ∉ k.toList) (q : String) :
    store.get? (p ++ "." ++ k ++ "." ++ q) =
      ((index? k).bind fun i => items[i]?).bind fun item => (Store.ofRecord item).get? q := by
  have hpath : p ++ "." ++ k ++ "." ++ q = p ++ "." ++ (k ++ "." ++ q) := by
    simp only [String.append_assoc]
  obtain ⟨rest, hsegments⟩ := exists_segments_eq q
  rw [hpath, get?_append_dot h hp, segments_append_dot, segments_of_not_mem hk, List.singleton_append,
    hsegments, Value.walk]
  cases index? k with
  | none => rfl
  | some i =>
      cases hitem : items[i]? with
      | none => simp [hitem]
      | some item =>
          have hdotless := hitems item (List.mem_of_getElem? hitem)
          rw [Option.bind_some, Option.bind_some, hitem, Option.bind_some, Option.bind_some,
            get?_eq_walk hdotless, hsegments]
          rfl

theorem bindings_get?_child (hfield : item.get? name = some value) (hindex : name ≠ indexName)
    (hplace : name ≠ placeName) (store : Store) (i : Nat) :
    (store.child item i).bindings.get? name = some value := by
  obtain ⟨before, after, hentries, hother⟩ := Dict.exists_eq_append_cons hfield
  show (((store.bindings.insertAll item.entries).insert indexName _).insert placeName _).get? name = _
  rw [Dict.get?_insert, if_neg hplace, Dict.get?_insert, if_neg hindex, hentries]
  refine Dict.get?_insertAll_append_cons before fun entry hentry => ?_
  exact hother entry (List.mem_append_right _ hentry)

theorem isDotless_child (h : Record.IsDotless store.bindings) (hitem : Record.IsDotless item)
    (i : Nat) : Record.IsDotless (store.child item i).bindings :=
  ((h.insertAll hitem).insert (by decide)).insert (by decide)

/-- A path that starts with a field leads inside of the loop to where it leads in the record. -/
theorem get?_child (h : Record.IsDotless store.bindings) (hitem : Record.IsDotless item)
    (hfield : root q ∈ item.keys) (hindex : root q ≠ indexName) (hplace : root q ≠ placeName)
    (i : Nat) :
    (store.child item i).get? q = (Store.ofRecord item).get? q := by
  obtain ⟨value, hvalue⟩ := Option.isSome_iff_exists.1 (Dict.mem_keys_iff.1 hfield)
  have hroot := bindings_get?_child hvalue hindex hplace store i
  refine get?_congr ?_ (hroot.trans hvalue.symm)
  by_cases hdot : '.' ∈ q.toList
  · rw [(isDotless_child h hitem i).get?_eq_none hdot]
    exact (hitem.get?_eq_none hdot).symm
  · rw [root_of_not_mem hdot] at hroot hvalue
    exact hroot.trans hvalue.symm

/-- **Paths compose, and agree with loops.** Where no key holds a dot, a path that goes on behind a
record goes on in this record; behind a list it takes a position and goes on in the record there, which
is what the rest of the path leads to inside of a loop over the list if it starts with a field of the
record; and it leads nowhere in all other cases. -/
theorem get?_path (hdotless : Record.Everywhere Record.IsDotless store.bindings) (p q : String) :
    (∀ fields, store.get? p = some (.record fields) →
      store.get? (p ++ "." ++ q) = (Store.ofRecord fields).get? q) ∧
    (∀ items, store.get? p = some (.list items) → ∀ k : String, '.' ∉ k.toList →
      store.get? (p ++ "." ++ k) = none ∧
      (index? k = none → store.get? (p ++ "." ++ k ++ "." ++ q) = none) ∧
      ∀ i, index? k = some i →
        (items.length ≤ i → store.get? (p ++ "." ++ k ++ "." ++ q) = none) ∧
        ∀ item, items[i]? = some item →
          store.get? (p ++ "." ++ k ++ "." ++ q) = (Store.ofRecord item).get? q ∧
          (root q ∈ item.keys → root q ≠ indexName → root q ≠ placeName →
            store.get? (p ++ "." ++ k ++ "." ++ q) = (store.child item i).get? q)) ∧
    ∀ value, store.get? p = some value → value.asRecord? = none → value.asList? = none →
      store.get? (p ++ "." ++ q) = none := by
  have hstore := hdotless.here
  refine ⟨fun fields hp => ?_, fun items hp k hk => ?_, fun value hp hrecord hlist => ?_⟩
  · have hfields : Record.IsDotless fields := by
      rw [get?_eq_walk hstore] at hp
      exact (hdotless.walk hp).of_record.here
    rw [get?_append_dot hstore hp, walk_segments_record hfields]
  · have hpath := hp
    rw [get?_eq_walk hstore] at hpath
    have hitems : ∀ item ∈ items, Record.IsDotless item := fun item hitem =>
      ((hdotless.walk hpath).of_list item hitem).here
    have hposition := get?_append_position hstore hitems hp hk q
    refine ⟨?_, fun hnone => ?_, fun i hi => ⟨fun hlength => ?_, fun item hitem => ?_⟩⟩
    · rw [get?_append_dot hstore hp, segments_of_not_mem hk]
      rfl
    · rw [hposition, hnone]
      rfl
    · rw [hposition, hi, Option.bind_some, List.getElem?_eq_none hlength]
      rfl
    · have hrecord : store.get? (p ++ "." ++ k ++ "." ++ q) = (Store.ofRecord item).get? q := by
        rw [hposition, hi, Option.bind_some, hitem]
        rfl
      refine ⟨hrecord, fun hfield hindex hplace => hrecord.trans (Eq.symm ?_)⟩
      exact get?_child hstore (hitems item (List.mem_of_getElem? hitem)) hfield hindex hplace i
  · obtain ⟨rest, hsegments⟩ := exists_segments_eq q
    rw [get?_append_dot hstore hp, hsegments]
    cases value with
    | record fields => cases hrecord
    | list items => cases hlist
    | _ => rfl

end Store

def firstPanel : Record :=
  .ofList [("title", .text "dawn")]

def secondPanel : Record :=
  .ofList [("@index", .text "own"), ("title", .record (.ofList [("long", .text "noon")]))]

def storyboard : Store :=
  .ofList [("scene", .record (.ofList [("panels", .list [firstPanel, secondPanel])])),
    ("title", .text "day")]

theorem isDotless_storyboard : Record.Everywhere Record.IsDotless storyboard.bindings := by
  have hfirst : Record.Everywhere Record.IsDotless firstPanel :=
    .intro (by decide) (List.forall_mem_singleton.2 (.text "dawn"))
  have hlong : Record.Everywhere Record.IsDotless (.ofList [("long", .text "noon")]) :=
    .intro (by decide) (List.forall_mem_singleton.2 (.text "noon"))
  have hsecond : Record.Everywhere Record.IsDotless secondPanel :=
    .intro (by decide) (List.forall_mem_cons.2
      ⟨.text "own", List.forall_mem_singleton.2 (.record hlong)⟩)
  have hpanels : ∀ item ∈ [firstPanel, secondPanel], Record.Everywhere Record.IsDotless item :=
    List.forall_mem_cons.2 ⟨hfirst, List.forall_mem_singleton.2 hsecond⟩
  have hscene : Record.Everywhere Record.IsDotless
      (.ofList [("panels", .list [firstPanel, secondPanel])]) :=
    .intro (by decide) (List.forall_mem_singleton.2 (.list hpanels))
  exact .intro (by decide) (List.forall_mem_cons.2
    ⟨.record hscene, List.forall_mem_singleton.2 (.text "day")⟩)

/-- A record whose own `@index` a loop hides, and whose title hides that of the store. -/
theorem get?_path_storyboard :
    Record.Everywhere Record.IsDotless storyboard.bindings ∧
      storyboard.get? "scene.panels" = some (.list [firstPanel, secondPanel]) ∧
      storyboard.get? "scene.panels.+1.title.long" =
        (storyboard.child secondPanel 1).get? "title.long" ∧
      storyboard.get? "scene.panels.1" = none ∧ storyboard.get? "title.long" = none := by
  have hdotless := isDotless_storyboard
  have hlist : storyboard.get? "scene.panels" = some (.list [firstPanel, secondPanel]) := rfl
  obtain ⟨-, hpanels, -⟩ := Store.get?_path hdotless "scene.panels" "title.long"
  obtain ⟨-, -, hposition⟩ := hpanels _ hlist "+1" (by decide)
  obtain ⟨hbare, -, -⟩ := hpanels _ hlist "1" (by decide)
  obtain ⟨-, hloop⟩ := (hposition 1 rfl).2 secondPanel rfl
  obtain ⟨-, -, hleaf⟩ := Store.get?_path hdotless "title" "long"
  exact ⟨hdotless, hlist, hloop (by decide) (by decide) (by decide), hbare,
    hleaf (.text "day") rfl rfl rfl⟩

end PromptSheet
