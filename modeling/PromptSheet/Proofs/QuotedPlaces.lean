import PromptSheet.Proofs.DictLaws
import PromptSheet.Proofs.Escaped
import PromptSheet.Template.Rendering

/-!
# What stands between quotes in a document

A template puts a value between quotes where its text closes one right after the slot that it opens
before it. Such a place lies under some loops, and shows a text for each of their items. If all the
texts in a store are escaped, but for those under some names, then every place which uses none of
these names shows escaped texts only.
-/

namespace PromptSheet

namespace Template

/-- A slot between quotes: the collections of the loops around it, the outermost first, and its
name. -/
structure Place where
  loops : List String
  name : String
deriving DecidableEq, Repr

def Place.inLoop (collection : String) (place : Place) : Place :=
  { place with loops := collection :: place.loops }

namespace Node

def endsWithQuote : Node → Bool
  | .text content => content.toList.getLast? == some '"'
  | _ => false

def startsWithQuote : Node → Bool
  | .text content => content.toList.head? == some '"'
  | _ => false

def placeBetween (before after : Option Node) : Node → List Place
  | .slot name =>
    if before.any endsWithQuote && after.any startsWithQuote then [⟨[], name⟩] else []
  | _ => []

mutual

/-- The places inside the blocks of a node, whichever branch is shown. -/
def innerPlaces : Node → List Place
  | .condition _ _ body none => placesAfter none body
  | .condition _ _ body (some other) => placesAfter none body ++ placesAfter none other
  | .loop collection body => (placesAfter none body).map (Place.inLoop collection)
  | .text _ => []
  | .slot _ => []
  | .rawSlot _ => []
  | .inclusion _ _ => []
  | .comment _ => []

def placesAfter (before : Option Node) : List Node → List Place
  | [] => []
  | node :: rest =>
    placeBetween before rest.head? node ++ innerPlaces node ++ placesAfter (some node) rest

end

def quotedPlaces (nodes : List Node) : List Place :=
  placesAfter none nodes

end Node

namespace Place

/-- A text that a slot shows inside these loops, for some items of theirs. -/
def ShowsIn (name text : String) : List String → Store → Prop
  | [], store => text = slotText store name
  | collection :: loops, store =>
    ∃ items, store.getList? collection = some items ∧
      ∃ i item, items[i]? = some item ∧ ShowsIn name text loops (store.child item i)

def Shows (place : Place) (store : Store) (text : String) : Prop :=
  ShowsIn place.name text place.loops store

end Place

end Template

/-- A value all of whose texts are escaped, except for those under the names in `bare`. -/
inductive Value.Quotable (bare : List String) : Value → Prop where
  | text {content : String} (h : Text.IsEscaped content.toList) : Quotable bare (.text content)
  | flag (on : Bool) : Quotable bare (.flag on)
  | number (value : Int) : Quotable bare (.number value)
  | record {fields : Record}
      (h : ∀ entry ∈ fields.entries, entry.1 ∉ bare → Quotable bare entry.2) :
      Quotable bare (.record fields)
  | list {items : List Record}
      (h : ∀ item ∈ items, ∀ entry ∈ item.entries, entry.1 ∉ bare → Quotable bare entry.2) :
      Quotable bare (.list items)

def EntriesQuotable (bare : List String) (entries : List (String × Value)) : Prop :=
  ∀ entry ∈ entries, entry.1 ∉ bare → entry.2.Quotable bare

def Store.Quotable (bare : List String) (store : Store) : Prop :=
  EntriesQuotable bare store.bindings.entries

section Lookup

variable {bare : List String} {store : Store} {value found : Value} {item : Record}

theorem EntriesQuotable.insertAll {dict : Record} {entries : List (String × Value)}
    (hdict : EntriesQuotable bare dict.entries) (hentries : EntriesQuotable bare entries) :
    EntriesQuotable bare (dict.insertAll entries).entries :=
  fun entry hentry => (Dict.mem_insertAll hentry).elim (hentries entry) (hdict entry)

theorem EntriesQuotable.insert {dict : Record} {key : String}
    (hdict : EntriesQuotable bare dict.entries) (hvalue : value.Quotable bare) :
    EntriesQuotable bare (dict.insert key value).entries := by
  intro entry hentry hname
  rcases Dict.mem_insert hentry with rfl | hentry
  · exact hvalue
  · exact hdict entry hentry hname

theorem EntriesQuotable.get? {dict : Record} {key : String}
    (hdict : EntriesQuotable bare dict.entries) (hkey : key ∉ bare)
    (h : dict.get? key = some value) : value.Quotable bare :=
  hdict (key, value) (Dict.mem_of_find? h) hkey

theorem Value.Quotable.walk {path : List String} {value : Value} (hvalue : value.Quotable bare)
    (hpath : ∀ segment ∈ path, segment ∉ bare) (h : value.walk path = some found) :
    found.Quotable bare := by
  match path, value with
  | [], value =>
      cases h
      exact hvalue
  | segment :: rest, .record fields =>
      cases hvalue with
      | record hfields =>
          obtain ⟨hsegment, hrest⟩ := List.forall_mem_cons.1 hpath
          obtain ⟨next, hnext, hwalk⟩ := Option.bind_eq_some_iff.1 h
          exact (EntriesQuotable.get? hfields hsegment hnext).walk hrest hwalk
  | segment :: field :: rest, .list items =>
      cases hvalue with
      | list hitems =>
          obtain ⟨_, hsegments⟩ := List.forall_mem_cons.1 hpath
          obtain ⟨hfield, hrest⟩ := List.forall_mem_cons.1 hsegments
          obtain ⟨i, _, hlist⟩ := Option.bind_eq_some_iff.1 h
          obtain ⟨item, hitem, hget⟩ := Option.bind_eq_some_iff.1 hlist
          obtain ⟨next, hnext, hwalk⟩ := Option.bind_eq_some_iff.1 hget
          have hquotable := hitems item (List.mem_of_getElem? hitem)
          exact (EntriesQuotable.get? hquotable hfield hnext).walk hrest hwalk
  | [segment], .list _ => cases h
  | _ :: _, .text _ => cases h
  | _ :: _, .flag _ => cases h
  | _ :: _, .number _ => cases h

def AvoidsName (bare : List String) (name : String) : Prop :=
  name ∉ bare ∧ ∀ segment ∈ segments name, segment ∉ bare

instance (bare : List String) (name : String) : Decidable (AvoidsName bare name) :=
  inferInstanceAs (Decidable (_ ∧ _))

theorem Store.Quotable.get? {name : String} (hstore : store.Quotable bare)
    (hname : AvoidsName bare name) (h : store.get? name = some value) : value.Quotable bare := by
  rw [Store.get?] at h
  cases hown : store.bindings.get? name with
  | some own =>
      rw [hown] at h
      cases h
      exact EntriesQuotable.get? hstore hname.1 hown
  | none =>
      simp only [hown] at h
      by_cases hdot : name.toList.contains '.' = true
      · rw [if_pos hdot] at h
        obtain ⟨first, rest, hsegments⟩ : ∃ first rest, segments name = first :: rest := by
          cases hsegments : segments name with
          | nil => rw [hsegments] at h; cases h
          | cons first rest => exact ⟨first, rest, rfl⟩
        rw [hsegments] at h
        have hpath := hname.2
        rw [hsegments] at hpath
        obtain ⟨hfirst, hrest⟩ := List.forall_mem_cons.1 hpath
        obtain ⟨start, hstart, hwalk⟩ := Option.bind_eq_some_iff.1 h
        exact (EntriesQuotable.get? hstore hfirst hstart).walk hrest hwalk
      · rw [if_neg hdot] at h
        cases h

theorem Value.Quotable.isEscaped_output (h : value.Quotable bare) :
    Text.IsEscaped value.output.toList := by
  cases h with
  | text h => exact h
  | flag on => cases on <;> exact Text.IsOrdinary.isEscaped (by decide)
  | number value => exact Text.isEscaped_toString_int value
  | record _ => exact .nil
  | list _ => exact .nil

theorem Store.Quotable.isEscaped_slotText {name : String} (hstore : store.Quotable bare)
    (hname : AvoidsName bare name) : Text.IsEscaped (Template.slotText store name).toList := by
  rw [Template.slotText]
  split
  · exact .nil
  · cases h : store.get? name with
    | none => exact .nil
    | some value => exact (hstore.get? hname h).isEscaped_output

theorem Store.Quotable.child (hstore : store.Quotable bare)
    (hitem : EntriesQuotable bare item.entries) (i : Nat) : (store.child item i).Quotable bare :=
  ((EntriesQuotable.insertAll hstore hitem).insert (.number _)).insert (.number _)

def Template.Place.Avoids (bare : List String) (place : Place) : Prop :=
  AvoidsName bare place.name ∧ ∀ collection ∈ place.loops, AvoidsName bare collection

instance (bare : List String) (place : Template.Place) : Decidable (place.Avoids bare) :=
  inferInstanceAs (Decidable (_ ∧ _))

theorem Template.Place.isEscaped_of_shows {place : Place} {text : String}
    (hstore : store.Quotable bare) (hplace : place.Avoids bare) (h : place.Shows store text) :
    Text.IsEscaped text.toList := by
  obtain ⟨loops, name⟩ := place
  have hname : AvoidsName bare name := hplace.1
  have hloops : ∀ collection ∈ loops, AvoidsName bare collection := hplace.2
  clear hplace
  replace h : ShowsIn name text loops store := h
  induction loops generalizing store with
  | nil =>
      rw [h]
      exact hstore.isEscaped_slotText hname
  | cons collection loops ih =>
      obtain ⟨items, hitems, i, item, hitem, hshows⟩ := h
      obtain ⟨hcollection, hinner⟩ := List.forall_mem_cons.1 hloops
      obtain ⟨value, hvalue, hlist⟩ := Option.bind_eq_some_iff.1 hitems
      cases hstore.get? hcollection hvalue with
      | list hquotable =>
          cases hlist
          exact ih (hstore.child (hquotable item (List.mem_of_getElem? hitem)) i) hinner hshows
      | _ => cases hlist

end Lookup

end PromptSheet
