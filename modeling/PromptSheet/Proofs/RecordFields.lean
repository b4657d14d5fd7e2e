import Mathlib.Data.List.Nodup
import Mathlib.Data.List.Pairwise
import Mathlib.Logic.Relation
import PromptSheet.Document.Codec
import PromptSheet.Document.Edit
import PromptSheet.State.Shape

/-!
# Records that are written and read

A record is read field by field into its blank. If every field reads what it writes and leaves the
others alone, a written record is read back, in whatever state the fields before were left. An edit
is not noticed either: a field that is left out still has what it has in the blank when its turn comes,
so reading its worth would not have changed the record, and a field of another name is passed over.
Which codecs have these laws is for instances to say, which follow the way a codec is put together.
-/

namespace PromptSheet

namespace Reading

variable {α β : Type} {first second third : Reading α} {next later : α → Reading β}
  {P : α → Prop} {Q : β → Prop}

/-- Whatever the first reads, the second reads as well. -/
def Within (first second : Reading α) : Prop :=
  ∀ left result, first left = some result → second left = some result

theorem within_refl (reading : Reading α) : Within reading reading :=
  fun _ _ h => h

theorem within_failure (reading : Reading α) : Within failure reading := by
  intro left result h
  cases h

theorem within_bind (hfirst : Within first second)
    (hnext : ∀ value, Within (next value) (later value)) :
    Within (first >>= next) (second >>= later) := by
  intro left result h
  obtain ⟨⟨value, rest⟩, hvalue, hlater⟩ := Option.bind_eq_some_iff.1 h
  exact Option.bind_eq_some_iff.2
    ⟨(value, rest), hfirst left _ hvalue, hnext value rest result hlater⟩

theorem within_map (f : α → β) (h : Within first second) : Within (f <$> first) (f <$> second) := by
  rw [← bind_pure_comp, ← bind_pure_comp]
  exact within_bind h fun _ => within_refl _

/-- Whatever is read has this property. -/
def Gives (reading : Reading α) (P : α → Prop) : Prop :=
  ∀ left value rest, reading left = some (value, rest) → P value

theorem gives_pure {value : α} (h : P value) : Gives (pure value) P := by
  intro left made rest hmade
  cases hmade
  exact h

theorem gives_bind (hfirst : first.Gives P) (hnext : ∀ value, P value → (next value).Gives Q) :
    Gives (first >>= next) Q := by
  intro left made rest hmade
  obtain ⟨⟨value, between⟩, hvalue, hlater⟩ := Option.bind_eq_some_iff.1 hmade
  exact hnext value (hfirst left value between hvalue) between made rest hlater

theorem gives_true (reading : Reading α) : reading.Gives fun _ => True :=
  fun _ _ _ _ => trivial

theorem within_bind_of_gives (h : first.Gives P)
    (hnext : ∀ value, P value → Within (next value) (later value)) :
    Within (first >>= next) (first >>= later) := by
  intro left result hmade
  obtain ⟨⟨value, rest⟩, hvalue, hlater⟩ := Option.bind_eq_some_iff.1 hmade
  exact Option.bind_eq_some_iff.2
    ⟨(value, rest), hvalue, hnext value (h left value rest hvalue) rest result hlater⟩

end Reading

open Reading (Within)

/-- An edit is of a record or a list, so it neither starts nor ends with null. -/
theorem Edit.ne_null {shape : Shape} {document edited : Json} (h : Edit shape document edited) :
    document ≠ .null ∧ edited ≠ .null := by
  induction h with
  | leaveOut | add | member | item => exact ⟨nofun, nofun⟩
  | present _ ih => exact ih

namespace Codec

variable {α : Type} {codec : Codec α} {shape : Shape}

/-- Values are read back from what is written for them, and from whatever edits make of it. -/
class Fits (codec : Codec α) (shape : outParam Shape) : Prop where
  read_write : ∀ value, codec.read Json.format (codec.write value) = pure value
  read_edited : ∀ document edited, Edit shape document edited →
    Within (codec.read Json.format document) (codec.read Json.format edited)

/-- No value is written as null, so that null can stand for none. -/
class FitsPresent (codec : Codec α) (shape : outParam Shape) : Prop extends Fits codec shape where
  write_ne_null : ∀ value, codec.write value ≠ .null

@[simp] theorem write_inj [h : codec.Fits shape] {value other : α} :
    codec.write value = codec.write other ↔ value = other := by
  refine ⟨fun heq => ?_, fun heq => heq ▸ rfl⟩
  have hread : (pure value : Reading α) = pure other := by
    rw [← h.read_write value, heq, h.read_write other]
  have hstart : some (value, 0) = some (other, 0) := congrFun hread 0
  exact (Prod.mk.inj (Option.some.inj hstart)).1

instance : text.FitsPresent .plain where
  read_write _ := rfl
  read_edited _ _ hedit := by cases hedit
  write_ne_null := nofun

instance : flag.FitsPresent .plain where
  read_write _ := rfl
  read_edited _ _ hedit := by cases hedit
  write_ne_null := nofun

theorem fits_choice {all : List α} {name : α → String}
    (h : ∀ value, all.find? (fun other => name other == name value) = some value) :
    (choice all name).FitsPresent .plain where
  read_write value := by
    show (liftM (all.find? fun other => name other == name value) : Reading α) = pure value
    rw [h]
    rfl
  read_edited _ _ hedit := by cases hedit
  write_ne_null := nofun

/-- Only null is nothing at all. -/
theorem read_optional_of_ne_null (codec : Codec α) {document : Json} (h : document ≠ .null) :
    (optional codec).read Json.format document = some <$> codec.read Json.format document := by
  cases document <;> first | rfl | exact absurd rfl h

instance [h : codec.FitsPresent shape] : (optional codec).Fits (.optional shape) where
  read_write value := by
    cases value with
    | none => rfl
    | some value =>
        show (optional codec).read Json.format (codec.write value) = pure (some value)
        rw [read_optional_of_ne_null codec (h.write_ne_null value), h.read_write, map_pure]
  read_edited document edited hedit := by
    cases hedit with
    | present hedit =>
        obtain ⟨hdocument, hedited⟩ := hedit.ne_null
        rw [read_optional_of_ne_null codec hdocument, read_optional_of_ne_null codec hedited]
        exact Reading.within_map _ (h.read_edited document edited hedit)

instance [h : codec.Fits shape] : (list codec).FitsPresent (.list shape) where
  read_write values := by
    show (values.map codec.write).mapM (codec.read Json.format) = pure values
    induction values with
    | nil => rfl
    | cons value values ih => rw [List.map_cons, List.mapM_cons, h.read_write, ih]; rfl
  read_edited document edited hedit := by
    have hitems : ∀ items : List Json,
        (list codec).read Json.format (.list items) = items.mapM (codec.read Json.format) :=
      fun _ => rfl
    cases hedit with
    | @item _ before after document edited hedit =>
        rw [hitems, hitems, List.mapM_append, List.mapM_append, List.mapM_cons, List.mapM_cons]
        refine Reading.within_bind (Reading.within_refl _) fun front => ?_
        refine Reading.within_bind ?_ fun back => Reading.within_refl _
        exact Reading.within_bind (h.read_edited document edited hedit) fun value =>
          Reading.within_refl _
  write_ne_null := nofun

/-- No sequence of edits shows in what is read. -/
theorem ofJson?_of_edits [h : codec.Fits shape] {value : α} {document : Json}
    (hedits : Relation.ReflTransGen (Edit shape) (codec.write value) document) :
    codec.ofJson? document = some value := by
  have hwithin : Within (pure value) (codec.read Json.format document) := by
    induction hedits with
    | refl => exact h.read_write value ▸ Reading.within_refl _
    | tail _ hedit ih =>
        exact fun left result hread => h.read_edited _ _ hedit left result (ih left result hread)
  exact Option.map_eq_some_iff.2 ⟨(value, 0), hwithin 0 (value, 0) rfl, rfl⟩

end Codec

namespace Field

variable {σ α β : Type} {fields : List (Field σ)} {field other : Field σ}

@[simp] theorem of_name (name : String) (codec : Codec α) (get : σ → α) (set : α → σ → σ) :
    (Field.of name codec get set).name = name :=
  rfl

@[simp] theorem of_write (name : String) (codec : Codec α) (get : σ → α) (set : α → σ → σ)
    (record : σ) : (Field.of name codec get set).write record = codec.write (get record) :=
  rfl

/-- Reading what is written for the field of some record puts it into any other record. -/
def Puts (field : Field σ) : Prop :=
  ∀ source record, ∃ next, field.read Json.format (field.write source) record = pure next ∧
    field.write next = field.write source

/-- Reading the one field leaves the other as it is. -/
def Spares (field other : Field σ) : Prop :=
  ∀ node record,
    (field.read Json.format node record).Gives fun next => other.write next = other.write record

/-- Each of the two leaves the other as it is. -/
def Apart (field other : Field σ) : Prop :=
  field.Spares other ∧ other.Spares field

instance : Std.Symm (@Apart σ) :=
  ⟨fun _ _ h => h.symm⟩

@[simp] theorem puts_of {name : String} {codec : Codec α} {shape : Shape} [h : codec.Fits shape]
    {get : σ → α} {set : α → σ → σ} (hset : ∀ value record, get (set value record) = value) :
    (Field.of name codec get set).Puts := by
  intro source record
  refine ⟨set (get source) record, ?_, ?_⟩
  · show (do return set (← codec.read Json.format (codec.write (get source))) record) = _
    rw [h.read_write, pure_bind]
  · show codec.write (get (set (get source) record)) = codec.write (get source)
    rw [hset]

@[simp] theorem spares_of {name later : String} {codec : Codec α} {next : Codec β} {get : σ → α}
    {set : α → σ → σ} {getNext : σ → β} {setNext : β → σ → σ}
    (h : ∀ value record, getNext (set value record) = getNext record) :
    (Field.of name codec get set).Spares (Field.of later next getNext setNext) :=
  fun _ record => Reading.gives_bind (Reading.gives_true _) fun value _ =>
    Reading.gives_pure (congrArg next.write (h value record))

/-- What a reader of JSON has for these fields. -/
def slots (fields : List (Field σ)) : Slots Json σ :=
  fields.map fun field => (field.name, field.read Json.format)

theorem exists_of_lookup_slots {name : String} {read : Json → σ → Reading σ}
    (hread : (slots fields).lookup name = some read) :
    ∃ field ∈ fields, field.name = name ∧ field.read Json.format = read := by
  obtain ⟨before, after, hslots, -⟩ := List.lookup_eq_some_iff.1 hread
  have hmem : (name, read) ∈ slots fields := by
    rw [hslots]
    exact List.mem_append_right _ List.mem_cons_self
  obtain ⟨field, hfield, heq⟩ := List.mem_map.1 hmem
  exact ⟨field, hfield, (Prod.mk.inj heq).1, (Prod.mk.inj heq).2⟩

/-- Edits of this shape do not change what is read for the field. -/
def Overlooks (field : Field σ) (shape : Shape) : Prop :=
  ∀ document edited, Edit shape document edited → ∀ record,
    Within (field.read Json.format document record) (field.read Json.format edited record)

@[simp] theorem overlooks_of {name : String} {codec : Codec α} {shape : Shape} [h : codec.Fits shape]
    {get : σ → α} {set : α → σ → σ} : (Field.of name codec get set).Overlooks shape :=
  fun document edited hedit _ =>
    Reading.within_bind (h.read_edited document edited hedit) fun _ => Reading.within_refl _

/-- With fewer fields seen before there are fewer that come twice. -/
theorem within_readNamed_of_subset {slots : Slots Json σ} {seen fewer : List String}
    (hfewer : fewer ⊆ seen) (members : List (String × Json)) (record : σ) :
    Within (Format.readNamed slots seen record members)
      (Format.readNamed slots fewer record members) := by
  induction members generalizing seen fewer record with
  | nil => exact Reading.within_refl _
  | cons member members ih =>
      obtain ⟨name, node⟩ := member
      rw [Format.readNamed, Format.readNamed]
      cases slots.lookup name with
      | none => exact ih hfewer record
      | some read =>
          by_cases hseen : name ∈ seen
          · simp only [List.contains_iff_mem, hseen, if_true]
            exact Reading.within_failure _
          · have hunseen : name ∉ fewer := fun hmem => hseen (hfewer hmem)
            simp only [List.contains_iff_mem, hseen, hunseen, if_false]
            exact Reading.within_bind (Reading.within_refl _) fun next =>
              ih (List.cons_subset_cons name hfewer) next

/-- The fields not yet seen still have what they have in the blank. -/
def Untouched (fields : List (Field σ)) (blank : σ) (seen : List String) (record : σ) : Prop :=
  ∀ field ∈ fields, field.name ∉ seen → field.write record = field.write blank

/-- Fields that are all there is to a record, each with a name and a place of its own. -/
structure AreLawful (fields : List (Field σ)) : Prop where
  distinct : (fields.map Field.name).Nodup
  puts : ∀ field ∈ fields, field.Puts
  apart : fields.Pairwise Apart
  ext : ∀ record other : σ, (∀ field ∈ fields, field.write record = field.write other) →
    record = other

namespace AreLawful

variable (h : AreLawful fields)

include h

theorem spares (hfield : field ∈ fields) (hother : other ∈ fields) (hne : field ≠ other) :
    field.Spares other :=
  (h.apart.forall hfield hother hne).1

/-- A record does not change when one of its fields is read from what the record itself writes. -/
theorem read_write (hfield : field ∈ fields) (record : σ) :
    field.read Json.format (field.write record) record = pure record := by
  obtain ⟨next, hread, hwrite⟩ := h.puts field hfield record record
  rw [hread]
  congr 1
  refine h.ext next record fun other hother => ?_
  by_cases hne : field = other
  · exact hne ▸ hwrite
  · exact h.spares hfield hother hne _ record 0 next 0 (by rw [hread]; rfl)

theorem lookup_slots (hfield : field ∈ fields) :
    (slots fields).lookup field.name = some (field.read Json.format) := by
  obtain ⟨before, after, hfields⟩ := List.append_of_mem hfield
  refine List.lookup_eq_some_iff.2
    ⟨slots before, slots after, by rw [hfields, slots, List.map_append]; rfl, fun slot hslot => ?_⟩
  obtain ⟨earlier, hearlier, rfl⟩ := List.mem_map.1 hslot
  have hdistinct := h.distinct
  rw [hfields, List.map_append, List.map_cons, List.nodup_append] at hdistinct
  have hne := hdistinct.2.2 _ (List.mem_map_of_mem hearlier) _ List.mem_cons_self
  simpa using hne.symm

/-- The fields before these have been read, so the record has what the written one has there. -/
theorem readNamed_written (written : σ) (rest : List (Field σ))
    (hrest : ∀ field ∈ rest, field ∈ fields) :
    ∀ (seen : List String) (record : σ), (rest.map Field.name).Nodup →
      (∀ field ∈ rest, field.name ∉ seen) →
      (∀ field ∈ fields, field ∉ rest → field.write record = field.write written) →
      Format.readNamed (slots fields) seen record
        (rest.map fun field => (field.name, field.write written)) = pure written := by
  induction rest with
  | nil =>
      intro seen record _ _ hdone
      have hrecord : record = written :=
        h.ext record written fun field hfield => hdone field hfield List.not_mem_nil
      rw [List.map_nil, Format.readNamed, hrecord]
  | cons field rest ih =>
      intro seen record hdistinct hseen hdone
      obtain ⟨hfield, hrest⟩ := List.forall_mem_cons.1 hrest
      obtain ⟨hnew, hlater⟩ := List.forall_mem_cons.1 hseen
      rw [List.map_cons, List.nodup_cons] at hdistinct
      obtain ⟨next, hread, hwrite⟩ := h.puts field hfield written record
      rw [List.map_cons, Format.readNamed, h.lookup_slots hfield]
      simp only [List.contains_iff_mem, hnew, if_false, hread, pure_bind]
      refine ih hrest _ next hdistinct.2 (fun other hother => ?_) fun other hother hdone' => ?_
      · have hname : other.name ≠ field.name := fun hname =>
          hdistinct.1 (hname ▸ List.mem_map_of_mem hother)
        exact List.not_mem_cons_of_ne_of_not_mem hname (hlater other hother)
      · by_cases hne : field = other
        · exact hne ▸ hwrite
        · have hspared := h.spares hfield hother hne _ record 0 next 0 (by rw [hread]; rfl)
          rw [hspared]
          refine hdone other hother fun hmem => ?_
          rcases List.mem_cons.1 hmem with heq | hmem
          · exact hne heq.symm
          · exact hdone' hmem

theorem read_record_write (blank written : σ) :
    (Codec.record blank fields).read Json.format ((Codec.record blank fields).write written) =
      pure written := by
  refine h.readNamed_written written fields (fun _ hfield => hfield) [] blank h.distinct
    (fun _ _ => List.not_mem_nil) fun field hfield hdone => absurd hfield hdone

/-! ### Reading an edited record

A member is left out, added or edited among others. Those before it read alike, and when its turn
comes the fields that were not seen are as they are in the blank.
-/

theorem gives_untouched {blank record : σ} {seen : List String} (hfield : field ∈ fields)
    (huntouched : Untouched fields blank seen record) (node : Json) :
    (field.read Json.format node record).Gives (Untouched fields blank (field.name :: seen)) := by
  intro left next rest hnext other hother hunseen
  rw [List.mem_cons, not_or] at hunseen
  have hne : field ≠ other := fun heq => hunseen.1 (heq ▸ rfl)
  rw [h.spares hfield hother hne node record left next rest hnext]
  exact huntouched other hother hunseen.2

/-- Nothing in front of two sequences of members touches a field without having seen it. -/
theorem within_readNamed_append {blank : σ} {members others : List (String × Json)}
    (hmembers : ∀ seen record, Untouched fields blank seen record →
      Within (Format.readNamed (slots fields) seen record members)
        (Format.readNamed (slots fields) seen record others))
    (before : List (String × Json)) :
    ∀ seen record, Untouched fields blank seen record →
      Within (Format.readNamed (slots fields) seen record (before ++ members))
        (Format.readNamed (slots fields) seen record (before ++ others)) := by
  induction before with
  | nil => exact hmembers
  | cons member before ih =>
      obtain ⟨name, node⟩ := member
      intro seen record huntouched
      rw [List.cons_append, List.cons_append, Format.readNamed, Format.readNamed]
      cases hread : (slots fields).lookup name with
      | none => exact ih seen record huntouched
      | some read =>
          obtain ⟨field, hfield, rfl, rfl⟩ := exists_of_lookup_slots hread
          by_cases hseen : seen.contains field.name = true
          · simp only [hseen, if_true]
            exact Reading.within_refl _
          · simp only [hseen]
            exact Reading.within_bind_of_gives (h.gives_untouched hfield huntouched node)
              fun next => ih (field.name :: seen) next

/-- What a field is worth when it is left out changes nothing where the field is still untouched. -/
theorem within_leaveOut {blank record : σ} {seen : List String} (hfield : field ∈ fields)
    (huntouched : Untouched fields blank seen record) (after : List (String × Json)) :
    Within (Format.readNamed (slots fields) seen record ((field.name, field.write blank) :: after))
      (Format.readNamed (slots fields) seen record after) := by
  rw [Format.readNamed, h.lookup_slots hfield]
  by_cases hseen : field.name ∈ seen
  · simp only [List.contains_iff_mem, hseen, if_true]
    exact Reading.within_failure _
  · simp only [List.contains_iff_mem, hseen, if_false]
    rw [← huntouched field hfield hseen, h.read_write hfield, pure_bind]
    exact within_readNamed_of_subset (List.subset_cons_self field.name seen) after record

theorem within_member {record : σ} {seen : List String} (hfield : field ∈ fields)
    {document edited : Json} (hread : ∀ record,
      Within (field.read Json.format document record) (field.read Json.format edited record))
    (after : List (String × Json)) :
    Within (Format.readNamed (slots fields) seen record ((field.name, document) :: after))
      (Format.readNamed (slots fields) seen record ((field.name, edited) :: after)) := by
  rw [Format.readNamed, Format.readNamed, h.lookup_slots hfield]
  by_cases hseen : seen.contains field.name = true
  · simp only [hseen, if_true]
    exact Reading.within_refl _
  · simp only [hseen]
    exact Reading.within_bind (hread record) fun next => Reading.within_refl _

theorem fits_record (blank : σ) {inner : List (String × Shape)}
    (hinner : ∀ field ∈ fields, field.Overlooks ((inner.lookup field.name).getD .plain)) :
    (Codec.record blank fields).FitsPresent (.ofFields blank fields inner) := by
  have hstart : Untouched fields blank [] blank := fun _ _ _ => rfl
  have hobject : ∀ members, (Codec.record blank fields).read Json.format (.object members) =
      Format.readNamed (slots fields) [] blank members := fun _ => rfl
  refine { read_write := h.read_record_write blank, read_edited := ?_, write_ne_null := nofun }
  intro document edited hedit
  rw [Shape.ofFields] at hedit
  cases hedit with
  | leaveOut hmember =>
      obtain ⟨field, hfield, heq⟩ := List.mem_map.1 hmember
      cases heq
      exact h.within_readNamed_append
        (fun _ _ huntouched => h.within_leaveOut hfield huntouched _) _ [] blank hstart
  | @add _ before after name content hname =>
      refine h.within_readNamed_append (fun seen record _ => ?_) _ [] blank hstart
      have hnone : (slots fields).lookup name = none := by
        refine List.lookup_eq_none_iff.2 fun slot hslot => ?_
        obtain ⟨field, hfield, rfl⟩ := List.mem_map.1 hslot
        simpa using (hname _ (List.mem_map_of_mem hfield)).symm
      rw [Format.readNamed, hnone]
      exact Reading.within_refl _
  | member hmember hedit =>
      obtain ⟨field, hfield, heq⟩ := List.mem_map.1 hmember
      cases heq
      exact h.within_readNamed_append
        (fun _ _ _ => h.within_member hfield (hinner field hfield _ _ hedit) _) _ [] blank hstart

end AreLawful

/-- Any set of fields that have what they have in the blank can be left out. -/
theorem edits_leaveOut {blank value : σ} {inner : List (String × Shape)} (keep : String → Bool)
    (h : ∀ field ∈ fields, keep field.name = false → field.write value = field.write blank) :
    Relation.ReflTransGen (Edit (.ofFields blank fields inner))
      ((Codec.record blank fields).write value)
      (.object ((fields.filter fun field => keep field.name).map fun field =>
        (field.name, field.write value))) := by
  -- The fields in front have been gone through already.
  suffices hrest : ∀ (front : List (String × Json)) (rest : List (Field σ)), rest ⊆ fields →
      Relation.ReflTransGen (Edit (.ofFields blank fields inner))
        (.object (front ++ rest.map fun field => (field.name, field.write value)))
        (.object (front ++ (rest.filter fun field => keep field.name).map fun field =>
          (field.name, field.write value))) from
    hrest [] fields (List.Subset.refl _)
  intro front rest hrest
  induction rest generalizing front with
  | nil => exact .refl
  | cons field rest ih =>
      obtain ⟨hfield, hrest⟩ := List.cons_subset.1 hrest
      cases hkeep : keep field.name with
      | true =>
          have hlater := ih (front ++ [(field.name, field.write value)]) hrest
          simpa [List.filter_cons, hkeep] using hlater
      | false =>
          refine .head ?_ (by simpa [List.filter_cons, hkeep] using ih front hrest)
          rw [List.map_cons, h field hfield hkeep]
          exact .leaveOut (List.mem_map_of_mem hfield)

end Field

end PromptSheet
