import PromptSheet.Proofs.QuotedBindings

/-!
# When all quoted texts are escaped

The two places that show a text as it was entered, and with them the exact condition under which all
that the bundled sections put between quotes is escaped.
-/

namespace PromptSheet

open Template (Place)
open Text (IsEscaped)

def outfitShapePlace : Place := ⟨[], "outfit_shape"⟩

def referencePlace : Place := ⟨["characters"], "reference"⟩

namespace Bundled

theorem quotes_outfitShape : Catalog.bundled.Quotes .outfitSheet outfitShapePlace := by
  have htree : (none, OutfitSheet.outfit) ∈ trees .outfitSheet := by simp [trees, ownTrees]
  have hparse := parse_template htree
  exact ⟨"outfit_sheet_preset", by decide, "outfit", by decide +kernel, _, rfl, _, hparse,
    by decide +kernel⟩

theorem quotes_reference : Catalog.bundled.Quotes .fourPanel referencePlace := by
  have htree : (none, FourPanel.characters) ∈ trees .fourPanel := by simp [trees, ownTrees]
  have hparse := parse_template htree
  exact ⟨"four_panel", by decide, "characters", by decide +kernel, _, rfl, _, hparse,
    by decide +kernel⟩

end Bundled

namespace Binding

theorem slotText_of_get? {store : Store} {name content : String}
    (hname : name.toList.head? ≠ some '@') (h : store.bindings.get? name = some (.text content)) :
    Template.slotText store name = content := by
  rw [Template.slotText, if_neg fun hloop => hname hloop.1, Store.get?, h]
  rfl

/-- A preset outfit shows its shape as it was entered. -/
theorem shows_outfitShape {state : State} {outfit : Outfit} (houtfit : state.outfit = some outfit)
    (hbuilder : outfit.useOutfitBuilder = true) :
    outfitShapePlace.Shows (outfitSheet state) outfit.outfitShape := by
  have hentries : outfitEntries outfit =
      (image "body_sheet_path" outfit.bodySheetImagePath ++
        [flag "is_reference_mode" false, word "outfit_category" outfit.outfitCategory]) ++
      word "outfit_shape" outfit.outfitShape ::
        ([word "outfit_color" outfit.outfitColor, word "outfit_pattern" outfit.outfitPattern,
          word "outfit_style" outfit.outfitStyle] ++
        unlessBlank (folded "additional_description" outfit.additionalDescription)) := by
    simp [outfitEntries, hbuilder]
  have hget : (outfitSheet state).bindings.get? "outfit_shape" = some (.text outfit.outfitShape) := by
    rw [outfitSheet, houtfit]
    show ((shared state).bindings.insertAll (outfitEntries outfit)).get? "outfit_shape" = _
    rw [hentries]
    refine Dict.get?_insertAll_append_cons _ (List.forall_mem_append.2 ⟨by simp, ?_⟩)
    intro entry hentry
    rw [eq_of_mem_unlessBlank hentry]
    simp [folded]
  exact (slotText_of_get? (by decide) hget).symm

theorem slotText_reference (store : Store) (slot : Nat) (character : Character) (i : Nat) :
    ∀ record ∈ comicCharacter slot character,
      Template.slotText (store.child record i) "reference" = characterReference slot character := by
  intro record hrecord
  rw [comicCharacter] at hrecord
  split at hrecord
  · obtain rfl := List.mem_singleton.1 hrecord
    refine slotText_of_get? (by decide) ?_
    show ((_ : Record).insert Store.placeName _).get? "reference" = _
    rw [Dict.get?_insert, if_neg (by decide), Dict.get?_insert, if_neg (by decide)]
    refine Dict.get?_insertAll_of_mem (Dict.mem_of_find? ?_) fun entry hentry hname => ?_
    · exact Dict.get?_insertAll_append_cons [quoted "name" (characterName slot character)]
        (by simp [folded])
    · obtain hentry | hentry := Dict.mem_insertAll hentry
      · revert hname
        simp only [List.mem_cons, List.not_mem_nil, or_false] at hentry
        obtain rfl | rfl | rfl := hentry <;> simp [quoted, folded, word]
      · cases hentry
  · cases hrecord

/-- A character of a comic shows the file name of its picture as it was entered. -/
theorem shows_reference {state : State} {comic : FourPanel} (hcomic : state.fourPanel = some comic)
    {slot : Nat} {character : Character} {record : Record}
    (hrecord : record ∈ comicCharacter slot character)
    (hmem : record ∈ comicCharacter 1 comic.character1 ++ comicCharacter 2 comic.character2) :
    referencePlace.Shows (fourPanel state) (characterReference slot character) := by
  have hget : (fourPanel state).bindings.get? "characters" = some (.list
      (comicCharacter 1 comic.character1 ++ comicCharacter 2 comic.character2)) := by
    rw [fourPanel, hcomic]
    exact Dict.get?_insertAll_append_cons [] (by simp)
  have hlist : (fourPanel state).getList? "characters" =
      some (comicCharacter 1 comic.character1 ++ comicCharacter 2 comic.character2) := by
    rw [Store.getList?, Store.get?, hget]
    rfl
  obtain ⟨i, hitem⟩ := List.mem_iff_getElem?.1 hmem
  exact ⟨_, hlist, i, record, hitem, (slotText_reference _ slot character i record hrecord).symm⟩

theorem isEscaped_fileName_of_shows {state : State} {comic : FourPanel}
    (hcomic : state.fourPanel = some comic) {slot : Nat} {character : Character}
    (hmem : comicCharacter slot character ⊆
      comicCharacter 1 comic.character1 ++ comicCharacter 2 comic.character2)
    (h : ∀ text, referencePlace.Shows (fourPanel state) text → IsEscaped text.toList) :
    IsEscaped (Text.fileName character.imagePath).toList := by
  by_cases hgiven : isCharacterGiven character = true
  · obtain ⟨record, hrecord⟩ : ∃ record, record ∈ comicCharacter slot character := by
      rw [comicCharacter, if_pos hgiven]
      exact ⟨_, List.mem_cons_self⟩
    have hshows := shows_reference hcomic hrecord (hmem hrecord)
    exact (isEscaped_characterReference slot character).1 (h _ hshows)
  · have hpath : character.imagePath = "" := by
      simp only [isCharacterGiven, Bool.or_eq_true, not_or, Bool.not_eq_true', Bool.not_eq_false]
        at hgiven
      exact String.isEmpty_iff.1 hgiven.2
    rw [hpath]
    exact .nil

end Binding

theorem Kind.needsNoEscape_of_forall {kind : Kind} {state : State}
    (h : ∀ place, Catalog.bundled.Quotes kind place → ∀ text, place.Shows (kind.bind state) text →
      IsEscaped text.toList) : kind.NeedsNoEscape state := by
  cases kind with
  | outfitSheet =>
      intro outfit houtfit hbuilder
      exact h _ Bundled.quotes_outfitShape _ (Binding.shows_outfitShape houtfit hbuilder)
  | fourPanel =>
      intro comic hcomic
      have hreference := h _ Bundled.quotes_reference
      refine List.forall_mem_cons.2 ⟨?_, List.forall_mem_cons.2 ⟨?_, List.forall_mem_nil _⟩⟩
      · exact Binding.isEscaped_fileName_of_shows hcomic (List.subset_append_left ..) hreference
      · exact Binding.isEscaped_fileName_of_shows hcomic (List.subset_append_right ..) hreference
  | _ => trivial

/-- **What stands between quotes is escaped** in all documents but those of two kinds, and there
exactly when the texts that are not escaped have no need of it. -/
theorem quotedTexts_escaped_iff (kind : Kind) (state : State) :
    (∀ place, Catalog.bundled.Quotes kind place → ∀ text, place.Shows (kind.bind state) text →
      IsEscaped text.toList) ↔ kind.NeedsNoEscape state := by
  constructor
  · exact Kind.needsNoEscape_of_forall
  · intro h place hplace text hshows
    exact Place.isEscaped_of_shows (Kind.quotable_bind h) (Bundled.avoids_of_quotes hplace) hshows

def quotedShape : Outfit :=
  { outfitShape := "a\"b" }

theorem not_all_quotedTexts_escaped :
    ¬∀ (kind : Kind) (state : State) (place : Place), Catalog.bundled.Quotes kind place →
      ∀ text, place.Shows (kind.bind state) text → IsEscaped text.toList := by
  intro h
  have hshows : outfitShapePlace.Shows (Binding.outfitSheet { outfit := some quotedShape })
      quotedShape.outfitShape :=
    Binding.shows_outfitShape rfl rfl
  have hescaped : IsEscaped ['a', '"', 'b'] :=
    h .outfitSheet _ _ Bundled.quotes_outfitShape _ hshows
  rw [Text.isEscaped_cons_plain (by decide)] at hescaped
  cases hescaped with
  | plain hquote _ => exact hquote (.inr rfl)

end PromptSheet
