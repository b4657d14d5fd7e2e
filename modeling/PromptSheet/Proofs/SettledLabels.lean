import PromptSheet.Engine
import PromptSheet.Proofs.FillIn
import PromptSheet.Proofs.Paths

/-!
# Labels in the order of their tables

The tables of labels are gone through in the order of their names, and the name of a label goes on from
that of its table, so it comes later than this. What a table reads is bound under its own name, or under
the start of it when the name is a path, and neither comes later than the name itself. No table can thus
read a label that is bound after it has had its turn: what it finds then it still finds at the end. A
second round therefore meets every table with its label bound or, as before, with nothing to say, and
the whole fill-in changes nothing when it comes a second time.
-/

namespace PromptSheet

theorem foldl_eq_self {α β : Type} {f : β → α → β} {start : β} {items : List α}
    (h : ∀ item ∈ items, f start item = start) : items.foldl f start = start := by
  induction items with
  | nil => rfl
  | cons item rest ih =>
      obtain ⟨hitem, hrest⟩ := List.forall_mem_cons.1 h
      rw [List.foldl_cons, hitem, ih hrest]

theorem lt_labelName (setting : String) : setting < labelName setting := by
  rw [String.lt_iff, labelName, String.toList_append, ← List.append_nil setting.toList,
    List.append_assoc]
  exact List.append_left_lt (List.nil_lt_cons _ _)

theorem root_le (name : String) : root name ≤ name := by
  obtain ⟨rest, hrest⟩ := root_prefix name
  refine String.not_lt.1 fun hlt => ?_
  rw [String.lt_iff, ← hrest] at hlt
  exact List.not_lt.2 List.le_append_left hlt

theorem labelName_inj {first second : String} :
    labelName first = labelName second ↔ first = second :=
  String.append_left_inj "_label"

/-- What a table reads is not the label of this table or a later one. -/
theorem ne_labelName_of_le {setting later name : String} (hlater : setting ≤ later)
    (hname : name ≤ setting) : name ≠ labelName later := by
  rintro rfl
  have hlt : later < setting := Std.lt_of_lt_of_le (lt_labelName later) hname
  exact String.not_lt.2 hlater hlt

section Tables

variable {tables : List (String × Dict String)} {name setting label : String} {store : Store}

theorem exists_table_of_labelFor? (h : labelFor? name tables store = some label) :
    ∃ table ∈ tables, name = labelName table.1 := by
  induction tables generalizing store with
  | nil => cases h
  | cons table tables ih =>
      by_cases hname : name = labelName table.1
      · exact ⟨table, List.mem_cons_self, hname⟩
      · rw [labelFor?, if_neg hname, Option.none_or] at h
        obtain ⟨found, hfound, heq⟩ := ih h
        exact ⟨found, List.mem_cons_of_mem _ hfound, heq⟩

theorem labelFor?_eq_none (h : ∀ table ∈ tables, name ≠ labelName table.1) :
    labelFor? name tables store = none := by
  cases hlabel : labelFor? name tables store with
  | none => rfl
  | some label =>
      obtain ⟨table, htable, heq⟩ := exists_table_of_labelFor? hlabel
      exact absurd heq (h table htable)

/-- The store after going through these tables. -/
def labelled (tables : List (String × Dict String)) (store : Store) : Store :=
  tables.foldl (fun store table => addLabel store table.1 table.2) store

theorem labelled_append (first second : List (String × Dict String)) (store : Store) :
    labelled (first ++ second) store = labelled second (labelled first store) :=
  List.foldl_append

theorem get?_labelled (tables : List (String × Dict String)) (store : Store) (name : String) :
    (labelled tables store).bindings.get? name =
      (store.bindings.get? name).or ((labelFor? name tables store).map .text) :=
  get?_foldl_addLabel tables store name

theorem keptBy_labelled (tables : List (String × Dict String)) (store : Store) :
    store.KeptBy (labelled tables store) :=
  Store.keptBy_of_or (get?_labelled tables store)

theorem get?_labelled_of_forall_ne (h : ∀ table ∈ tables, name ≠ labelName table.1) :
    (labelled tables store).bindings.get? name = store.bindings.get? name := by
  rw [get?_labelled, labelFor?_eq_none h, Option.map_none, Option.or_none]

/-- Later tables change nothing in what an earlier one reads. -/
theorem getText?_labelled (h : ∀ table ∈ tables, setting ≤ table.1) :
    (labelled tables store).getText? setting = store.getText? setting := by
  have hget : (labelled tables store).get? setting = store.get? setting := by
    refine Store.get?_congr ?_ ?_
    · exact get?_labelled_of_forall_ne fun table htable =>
        ne_labelName_of_le (h table htable) (String.le_refl setting)
    · exact get?_labelled_of_forall_ne fun table htable =>
        ne_labelName_of_le (h table htable) (root_le setting)
  rw [Store.getText?, Store.getText?, hget]

/-- **A label is what its table says at the end.** -/
theorem get?_labelled_labelName {labels : Dict String} (hsorted : Dict.IsSorted tables)
    (hmem : (setting, labels) ∈ tables) (store : Store) :
    (labelled tables store).bindings.get? (labelName setting) =
      (store.bindings.get? (labelName setting)).or
        ((label? (labelled tables store) setting labels).map .text) := by
  obtain ⟨before, after, rfl⟩ := List.append_of_mem hmem
  obtain ⟨-, hafter, hbefore⟩ := List.pairwise_append.1 hsorted
  have hlater : ∀ table ∈ after, setting < table.1 := (List.pairwise_cons.1 hafter).1
  have hearlier : ∀ table ∈ before, labelName setting ≠ labelName table.1 := by
    intro table htable heq
    have hlt : table.1 < setting := hbefore table htable _ List.mem_cons_self
    rw [labelName_inj.1 heq] at hlt
    exact String.lt_irrefl _ hlt
  have hnone : ∀ store, labelFor? (labelName setting) after store = none := by
    intro store
    refine labelFor?_eq_none fun table htable heq => ?_
    have hlt := hlater table htable
    rw [labelName_inj.1 heq] at hlt
    exact String.lt_irrefl _ hlt
  have hread : ∀ table ∈ (setting, labels) :: after, setting ≤ table.1 :=
    List.forall_mem_cons.2 ⟨String.le_refl setting, fun table htable =>
      Std.le_of_lt (hlater table htable)⟩
  rw [labelled_append, get?_labelled, get?_labelled_of_forall_ne hearlier, labelFor?, if_pos rfl,
    hnone, Option.or_none, label?, label?, getText?_labelled hread]

/-- A second round binds nothing. -/
theorem labelled_labelled (hsorted : Dict.IsSorted tables) (store : Store) :
    labelled tables (labelled tables store) = labelled tables store := by
  have hsettled : ∀ table ∈ tables,
      addLabel (labelled tables store) table.1 table.2 = labelled tables store := by
    rintro ⟨setting, labels⟩ htable
    rw [addLabel]
    by_cases hbound : (labelled tables store).isBound (labelName setting) = true
    · rw [if_pos hbound]
    · have hlabel : label? (labelled tables store) setting labels = none := by
        have hlabelled := get?_labelled_labelName hsorted htable store
        have hfree : (labelled tables store).bindings.get? (labelName setting) = none :=
          Store.not_isBound_iff.1 hbound
        rw [hfree, eq_comm, Option.or_eq_none_iff, Option.map_eq_none_iff] at hlabelled
        exact hlabelled.2
      rw [if_neg hbound, hlabel]
  exact foldl_eq_self hsettled

end Tables

theorem Dict.mergeMissing_eq_self {α : Type} {dict other : Dict α}
    (h : ∀ entry ∈ other.entries, dict.contains entry.1 = true) : dict.mergeMissing other = dict := by
  refine foldl_eq_self fun entry hentry => ?_
  rw [insertMissing, if_pos (h entry hentry)]

namespace Catalog

variable {catalog : Catalog} (outputType key : String) (store : Store)

theorem mergeMissing_fillIn :
    (catalog.fillIn outputType key store).mergeMissing (catalog.staticValues outputType key) =
      catalog.fillIn outputType key store := by
  refine congrArg (fun bindings => { catalog.fillIn outputType key store with bindings })
    (Dict.mergeMissing_eq_self fun entry hentry => ?_)
  let values := catalog.staticValues outputType key
  have hstatic : (values.bindings.get? entry.1).isSome = true :=
    Dict.mem_keys_iff.1 (List.mem_map_of_mem hentry)
  have hmerged : ((store.mergeMissing values).bindings.get? entry.1).isSome = true := by
    show ((store.bindings.mergeMissing values.bindings).get? entry.1).isSome = true
    rw [Dict.get?_mergeMissing, Option.isSome_or, hstatic, Bool.or_true]
  obtain ⟨own, hown⟩ := Option.isSome_iff_exists.1 hmerged
  exact Store.isBound_iff.2 ⟨own, keptBy_labelled _ _ entry.1 own hown⟩

theorem fillIn_fillIn : catalog.fillIn outputType key (catalog.fillIn outputType key store) =
    catalog.fillIn outputType key store := by
  rw [fillIn, mergeMissing_fillIn]
  exact labelled_labelled catalog.selectionMap.labels.isSorted _

theorem engine_assemble_fillIn {engine : Engine} {files : FileTree}
    (hcatalog : engine.catalog files = .ok catalog) :
    engine.assemble files outputType key (catalog.fillIn outputType key store) =
      engine.assemble files outputType key store := by
  rw [Engine.assemble, Engine.assemble, Engine.consult_of_ok hcatalog,
    Engine.consult_of_ok hcatalog, assemble, assemble, fillIn_fillIn outputType key store]

/-- **The labels are settled after one round.** Nothing bound is changed and only labels are added;
one is there just if its setting, read from the result, is a text of the table, and it says what the
table says. Nothing is left for a second round, nor for a second fill-in. -/
theorem addLabels_settled (catalog : Catalog) (store : Store) :
    let labels := catalog.selectionMap.labels
    let filled := catalog.addLabels store
    store.KeptBy filled ∧
      (∀ name, store.bindings.get? name = none → filled.bindings.get? name ≠ none →
        ∃ setting ∈ labels.keys, name = labelName setting) ∧
      (∀ setting table, labels.get? setting = some table →
        store.bindings.get? (labelName setting) = none →
          ∀ value, filled.bindings.get? (labelName setting) = some value ↔
            ∃ content label, filled.get? setting = some (.text content) ∧
              table.get? content = some label ∧ value = .text label) ∧
      catalog.addLabels filled = filled ∧
      ∀ outputType key,
        catalog.fillIn outputType key (catalog.fillIn outputType key store) =
            catalog.fillIn outputType key store ∧
          ∀ (engine : Engine) (files : FileTree), engine.catalog files = .ok catalog →
            engine.assemble files outputType key (catalog.fillIn outputType key store) =
              engine.assemble files outputType key store := by
  intro labels filled
  refine ⟨keptBy_labelled labels.entries store, fun name hfree hbound => ?_,
    fun setting table htable hfree value => ?_, labelled_labelled labels.isSorted store,
    fun outputType key => ⟨fillIn_fillIn outputType key store,
      fun engine files hcatalog => engine_assemble_fillIn outputType key store hcatalog⟩⟩
  · have hname : filled.bindings.get? name = _ := get?_labelled labels.entries store name
    rw [hfree, Option.none_or] at hname
    rw [hname, ne_eq, Option.map_eq_none_iff, ← ne_eq, Option.ne_none_iff_exists'] at hbound
    obtain ⟨label, hlabel⟩ := hbound
    obtain ⟨entry, hentry, heq⟩ := exists_table_of_labelFor? hlabel
    exact ⟨entry.1, List.mem_map_of_mem hentry, heq⟩
  · have hlabel : filled.bindings.get? (labelName setting) = _ :=
      get?_labelled_labelName labels.isSorted (Dict.mem_of_find? htable) store
    rw [hlabel, hfree, Option.none_or, Option.map_eq_some_iff]
    constructor
    · rintro ⟨label, hmapped, rfl⟩
      obtain ⟨content, hcontent, hmapped⟩ := Option.bind_eq_some_iff.1 hmapped
      exact ⟨content, label, Store.getText?_eq_some_iff.1 hcontent, hmapped, rfl⟩
    · rintro ⟨content, label, hcontent, hmapped, rfl⟩
      refine ⟨label, ?_, rfl⟩
      exact Option.bind_eq_some_iff.2 ⟨content, Store.getText?_eq_some_iff.2 hcontent, hmapped⟩

end Catalog

/-- A table of plain settings, one of their labels, and one of a field that a path leads to. -/
def chainedTables : Catalog :=
  { selectionMap :=
      { labels := .ofList [("scene.mood", .ofList [("wet", "Rain")]),
          ("mood_label", .ofList [("Calm", "Still")]), ("mood", .ofList [("calm", "Calm")])] } }

def rainyScene : Store :=
  .ofList [("mood", .text "calm"), ("scene", .record (.ofList [("mood", .text "wet")]))]

theorem addLabels_settled_chained :
    let filled := chainedTables.addLabels rainyScene
    let engine := Engine.withCatalog {} chainedTables
    rainyScene.bindings.get? "mood_label_label" = none ∧
      rainyScene.bindings.get? "scene.mood_label" = none ∧
      engine.catalog {} = .ok chainedTables ∧
      filled.bindings.get? "mood_label_label" = some (.text "Still") ∧
      filled.bindings.get? "scene.mood_label" = some (.text "Rain") ∧
      chainedTables.addLabels filled = filled ∧
      engine.assemble {} "card" "card" (chainedTables.fillIn "card" "card" rainyScene) =
        engine.assemble {} "card" "card" rainyScene := by
  intro filled engine
  obtain ⟨-, -, hlabel, htwice, hfillIn⟩ := Catalog.addLabels_settled chainedTables rainyScene
  refine ⟨rfl, rfl, rfl, ?_, ?_, htwice, (hfillIn "card" "card").2 engine {} rfl⟩
  · exact (hlabel "mood_label" _ rfl rfl _).2 ⟨"Calm", "Still", rfl, rfl, rfl⟩
  · exact (hlabel "scene.mood" _ rfl rfl _).2 ⟨"wet", "Rain", rfl, rfl, rfl⟩

end PromptSheet
