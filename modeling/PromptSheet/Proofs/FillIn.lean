import PromptSheet.Catalog.FillIn
import PromptSheet.Proofs.DictLaws

/-!
# What a template sees after the fill-in

The fill-in asks only whether a name is bound itself. A template also reads names as paths, and a
binding of the very name comes before the path. So whatever has a binding of its own stays as it is,
and a path leads where it led before unless the catalog binds a name that is spelled like it.
-/

namespace PromptSheet

namespace Store

variable {first second : Store} {name : String} {value : Value}

/-- Whatever the first store binds, the second binds to the same value. -/
def KeptBy (first second : Store) : Prop :=
  ∀ name value, first.bindings.get? name = some value → second.bindings.get? name = some value

theorem keptBy_of_or {added : String → Option Value}
    (h : ∀ name, second.bindings.get? name = (first.bindings.get? name).or (added name)) :
    first.KeptBy second := by
  intro name value hvalue
  rw [h, hvalue]
  rfl

theorem isBound_iff {store : Store} : store.isBound name = true ↔
    ∃ value, store.bindings.get? name = some value := by
  rw [isBound, Dict.contains, Option.isSome_iff_exists]

theorem not_isBound_iff {store : Store} :
    ¬store.isBound name = true ↔ store.bindings.get? name = none := by
  simp [isBound, Dict.contains]

theorem KeptBy.walk (hkept : first.KeptBy second) {path : List String}
    (h : first.walk path = some value) : second.walk path = some value := by
  cases path with
  | nil => cases h
  | cons segment rest =>
      obtain ⟨start, hstart, hwalk⟩ := Option.bind_eq_some_iff.1 h
      rw [Store.walk, hkept segment start hstart]
      exact hwalk

theorem KeptBy.get? (hkept : first.KeptBy second) (h : first.get? name = some value) :
    second.get? name = some ((second.bindings.get? name).getD value) := by
  rw [Store.get?]
  cases hown : second.bindings.get? name with
  | some own => rfl
  | none =>
      have hfree : first.bindings.get? name = none := by
        cases hfirst : first.bindings.get? name with
        | none => rfl
        | some old => cases hown.symm.trans (hkept name old hfirst)
      simp only [Store.get?, hfree] at h
      by_cases hdot : name.toList.contains '.' = true
      · rw [if_pos hdot] at h
        simp only [if_pos hdot]
        exact hkept.walk h
      · rw [if_neg hdot] at h
        cases h

end Store

section Labels

variable {name : String} {tables : List (String × Dict String)}

theorem get?_addLabel (store : Store) (setting : String) (labels : Dict String) (name : String) :
    (addLabel store setting labels).bindings.get? name =
      (store.bindings.get? name).or
        (if name = labelName setting then (label? store setting labels).map .text else none) := by
  rw [addLabel]
  by_cases hbound : store.isBound (labelName setting) = true
  · rw [if_pos hbound]
    obtain ⟨old, hold⟩ := Store.isBound_iff.1 hbound
    by_cases hname : name = labelName setting
    · rw [hname, hold]
      rfl
    · rw [if_neg hname, Option.or_none]
  · rw [if_neg hbound]
    have hfree : store.bindings.get? (labelName setting) = none := Store.not_isBound_iff.1 hbound
    cases label? store setting labels with
    | none => simp
    | some label =>
        show (store.bindings.insert (labelName setting) (.text label)).get? name = _
        rw [Dict.get?_insert]
        by_cases hname : name = labelName setting
        · rw [if_pos hname, if_pos hname, hname, hfree]
          rfl
        · rw [if_neg hname, if_neg hname, Option.or_none]

/-- The label that going through the tables binds to a name that is free. A table sees the labels
which the tables before it have bound. -/
def labelFor? (name : String) : List (String × Dict String) → Store → Option String
  | [], _ => none
  | (setting, labels) :: rest, store =>
    (if name = labelName setting then label? store setting labels else none).or
      (labelFor? name rest (addLabel store setting labels))

theorem get?_foldl_addLabel (tables : List (String × Dict String)) (store : Store) (name : String) :
    (tables.foldl (fun store table => addLabel store table.1 table.2) store).bindings.get? name =
      (store.bindings.get? name).or ((labelFor? name tables store).map .text) := by
  induction tables generalizing store with
  | nil => simp [labelFor?]
  | cons table tables ih =>
      obtain ⟨setting, labels⟩ := table
      rw [List.foldl_cons, ih, get?_addLabel, labelFor?, Option.or_assoc]
      congr 1
      by_cases hname : name = labelName setting
      · rw [if_pos hname, if_pos hname]
        cases label? store setting labels <;> rfl
      · rw [if_neg hname, if_neg hname]
        rfl

end Labels

namespace Catalog

variable (catalog : Catalog) (outputType key : String)

/-- What the fill-in binds to the very name: nothing if the name has a binding already, else the
catalog's own value of this name or the label. -/
def supplied? (store : Store) (name : String) : Option Value :=
  if store.isBound name then none
  else
    let values := catalog.staticValues outputType key
    (values.bindings.get? name).or
      ((labelFor? name catalog.selectionMap.labels.entries (store.mergeMissing values)).map .text)

theorem get?_fillIn_bindings (store : Store) (name : String) :
    (catalog.fillIn outputType key store).bindings.get? name =
      (store.bindings.get? name).or (catalog.supplied? outputType key store name) := by
  have hmerged : (store.mergeMissing (catalog.staticValues outputType key)).bindings.get? name =
      (store.bindings.get? name).or ((catalog.staticValues outputType key).bindings.get? name) :=
    Dict.get?_mergeMissing ..
  rw [fillIn, addLabels, get?_foldl_addLabel, hmerged, Option.or_assoc, supplied?]
  by_cases hbound : store.isBound name = true
  · obtain ⟨old, hold⟩ := Store.isBound_iff.1 hbound
    rw [hold]
    rfl
  · rw [if_neg hbound]

theorem keptBy_fillIn (store : Store) : store.KeptBy (catalog.fillIn outputType key store) :=
  Store.keptBy_of_or (catalog.get?_fillIn_bindings outputType key store)

/-- **A template sees what it saw before the fill-in**, but for a path whose very spelling the
catalog binds. -/
theorem get?_fillIn (store : Store) (name : String) (value : Value)
    (h : store.get? name = some value) :
    (catalog.fillIn outputType key store).get? name =
      some ((catalog.supplied? outputType key store name).getD value) := by
  rw [(catalog.keptBy_fillIn outputType key store).get? h, get?_fillIn_bindings]
  cases hown : store.bindings.get? name with
  | none => rfl
  | some own =>
      have hbound : store.isBound name = true := Store.isBound_iff.2 ⟨own, hown⟩
      rw [Store.get?, hown] at h
      cases h
      rw [supplied?, if_pos hbound]
      rfl

end Catalog

def dottedHeader : Catalog :=
  { master :=
      { outputTypes := .ofList [("card", { headerValues := .ofList [("a.b", .text "header")] })] } }

def nested : Store :=
  .ofList [("a", .record (.ofList [("b", .text "own"), ("c", .text "kept")]))]

theorem get?_fillIn_nested :
    nested.get? "a.c" = some (.text "kept") ∧
      (dottedHeader.fillIn "card" "card" nested).get? "a.c" = some (.text "kept") := by
  have hbefore : nested.get? "a.c" = some (.text "kept") := rfl
  exact ⟨hbefore, dottedHeader.get?_fillIn "card" "card" nested "a.c" _ hbefore⟩

theorem not_all_get?_fillIn :
    ¬∀ (catalog : Catalog) (outputType key : String) (store : Store) (name : String) (value : Value),
      store.get? name = some value →
        (catalog.fillIn outputType key store).get? name = some value := by
  intro h
  have hafter := h dottedHeader "card" "card" nested "a.b" (.text "own") rfl
  have hheader : (dottedHeader.fillIn "card" "card" nested).get? "a.b" = some (.text "header") := rfl
  rw [hheader] at hafter
  injection hafter with hvalue
  injection hvalue with htext
  exact absurd htext (by decide)

end PromptSheet
