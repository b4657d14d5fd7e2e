import PromptSheet.Proofs.BundledPlaces

/-!
# Which quoted texts are escaped

Every kind escapes what its sections put between quotes, with two exceptions: the shape of an outfit
that is built from presets, and the file names in the references of a comic's characters. These are
bound as they stand, so whether all quoted texts are escaped depends on the state there and nowhere
else.
-/

namespace PromptSheet

open Template (Place)
open Text (IsEscaped IsOrdinary)

namespace Binding

variable {bare : List String}

section Entries

variable {name content : String} {entry : Entry} {first second : List Entry}

@[simp]
theorem entriesQuotable_nil : EntriesQuotable bare [] :=
  List.forall_mem_nil _

@[simp]
theorem entriesQuotable_cons : EntriesQuotable bare (entry :: first) ↔
    (entry.1 ∉ bare → entry.2.Quotable bare) ∧ EntriesQuotable bare first :=
  List.forall_mem_cons

@[simp]
theorem entriesQuotable_append : EntriesQuotable bare (first ++ second) ↔
    EntriesQuotable bare first ∧ EntriesQuotable bare second :=
  List.forall_mem_append

@[simp]
theorem word_fst : (word name content).1 = name := rfl

@[simp]
theorem quotable_word : (word name content).2.Quotable bare ↔ IsEscaped content.toList := by
  constructor
  · intro h
    cases h with
    | text h => exact h
  · exact .text

@[simp]
theorem quotable_flag (on : Bool) : (flag name on).2.Quotable bare :=
  .flag on

@[simp]
theorem quotable_ofCount (n : Nat) : (Value.ofCount n).Quotable bare :=
  .number _

@[simp]
theorem quotable_quoted : (quoted name content).2.Quotable bare :=
  .text (Text.isEscaped_escape content)

@[simp]
theorem quotable_folded : (folded name content).2.Quotable bare :=
  .text (Text.isEscaped_fold content)

theorem eq_of_mem_unlessBlank {other : Entry} (h : other ∈ unlessBlank entry) : other = entry := by
  obtain ⟨name, value⟩ := entry
  cases value with
  | text content =>
      rw [unlessBlank] at h
      split at h
      · cases h
      · exact List.mem_singleton.1 h
  | _ => exact List.mem_singleton.1 h

theorem entriesQuotable_unlessBlank (h : entry.2.Quotable bare) :
    EntriesQuotable bare (unlessBlank entry) := by
  intro other hother _
  rw [eq_of_mem_unlessBlank hother]
  exact h

@[simp]
theorem entriesQuotable_unlessBlank_quoted :
    EntriesQuotable bare (unlessBlank (quoted name content)) :=
  entriesQuotable_unlessBlank quotable_quoted

@[simp]
theorem entriesQuotable_unlessBlank_folded :
    EntriesQuotable bare (unlessBlank (folded name content)) :=
  entriesQuotable_unlessBlank quotable_folded

@[simp]
theorem entriesQuotable_image (path : String) : EntriesQuotable bare (image name path) := by
  rw [image]
  split <;> simp

theorem entriesQuotable_ofList {entries : List Entry} (h : EntriesQuotable bare entries) :
    EntriesQuotable bare (Dict.ofList entries).entries :=
  EntriesQuotable.insertAll entriesQuotable_nil h

end Entries

theorem isEscaped_colorMode (mode : ColorMode) : IsEscaped mode.name.toList := by
  cases mode <;> exact IsOrdinary.isEscaped (by decide)

theorem isEscaped_duotone (color : DuotoneColor) : IsEscaped color.prompt.toList := by
  cases color <;> exact IsOrdinary.isEscaped (by decide)

theorem isEscaped_outputStyle (style : OutputStyle) : IsEscaped style.name.toList := by
  cases style <;> exact IsOrdinary.isEscaped (by decide)

theorem isEscaped_aspectRatio (ratio : AspectRatio) : IsEscaped ratio.name.toList := by
  cases ratio <;> exact IsOrdinary.isEscaped (by decide)

theorem isEscaped_styleInfo (style : OutputStyle) : IsEscaped style.info.style.toList ∧
    IsEscaped style.info.proportions.toList ∧ IsEscaped style.info.description.toList := by
  cases style <;> exact ⟨IsOrdinary.isEscaped (by decide +kernel),
    IsOrdinary.isEscaped (by decide +kernel), IsOrdinary.isEscaped (by decide +kernel)⟩

theorem entriesQuotable_shared (state : State) : EntriesQuotable bare (sharedEntries state) := by
  have hauthor : EntriesQuotable bare
      (if isBlankText state.author then [] else [quoted "author" (trimText state.author)]) := by
    split <;> simp
  have hduotone : EntriesQuotable bare (if state.colorMode.isDuotone then
      [word "duotone_style" state.duotoneColor.prompt] else []) := by
    split <;> simp [isEscaped_duotone]
  simp [sharedEntries, hauthor, hduotone, isEscaped_colorMode, isEscaped_outputStyle,
    isEscaped_aspectRatio]

theorem entriesQuotable_style (style : OutputStyle) : EntriesQuotable bare (styleEntries style) := by
  simp [styleEntries, isEscaped_styleInfo style]

theorem quotable_withBlock {α : Type} {block : Option α} {entries : α → List Entry}
    (h : ∀ settings ∈ block, EntriesQuotable bare (entries settings)) (state : State) :
    (withBlock block entries state).Quotable bare := by
  have hshared : (shared state).Quotable bare := entriesQuotable_ofList (entriesQuotable_shared state)
  cases block with
  | none => exact hshared
  | some settings => exact EntriesQuotable.insertAll hshared (h settings rfl)

theorem entriesQuotable_faceSheet (style : OutputStyle) (sheet : FaceSheet) :
    EntriesQuotable bare (faceSheetEntries style sheet) := by
  have hexpression : IsEscaped "neutral expression".toList := IsOrdinary.isEscaped (by decide)
  simp [faceSheetEntries, entriesQuotable_style, hexpression, -String.reduceToList]

theorem entriesQuotable_bodySheet (style : OutputStyle) (sheet : BodySheet) :
    EntriesQuotable Kind.bodySheet.bareNames (bodySheetEntries style sheet) := by
  simp [bodySheetEntries, entriesQuotable_style, Kind.bareNames]

theorem entriesQuotable_outfit (outfit : Outfit)
    (hshape : outfit.useOutfitBuilder = true → IsEscaped outfit.outfitShape.toList) :
    EntriesQuotable Kind.outfitSheet.bareNames (outfitEntries outfit) := by
  by_cases hbuilder : outfit.useOutfitBuilder = true
  · simp [outfitEntries, hbuilder, hshape hbuilder, Kind.bareNames]
  · simp [outfitEntries, hbuilder, Kind.bareNames]

theorem entriesQuotable_pose (pose : Pose) :
    EntriesQuotable Kind.pose.bareNames (poseEntries pose) := by
  cases hcapture : pose.usePoseCapture <;> simp [poseEntries, hcapture, Kind.bareNames]

theorem quotable_records {α : Type} {records : List α} {entries : α → List Entry}
    (h : ∀ record ∈ records, EntriesQuotable bare (entries record)) :
    (Value.list (records.map fun record => .ofList (entries record))).Quotable bare := by
  refine .list fun item hitem => ?_
  obtain ⟨record, hrecord, rfl⟩ := List.mem_map.1 hitem
  exact entriesQuotable_ofList (h record hrecord)

theorem entriesQuotable_scene (scene : Scene) : EntriesQuotable bare (sceneEntries scene) := by
  have htype : IsEscaped scene.sceneType.name.toList := by
    cases scene.sceneType <;> exact IsOrdinary.isEscaped (by decide)
  have hcharacters : (Value.list (sceneCharacters scene)).Quotable bare :=
    quotable_records fun _ _ => by simp
  simp [sceneEntries, htype, hcharacters]

theorem entriesQuotable_background (background : Background) :
    EntriesQuotable bare (backgroundEntries background) := by
  cases hreference : background.usesReference <;> simp [backgroundEntries, hreference]

theorem entriesQuotable_decorativeText (lettering : DecorativeText) :
    EntriesQuotable Kind.decorativeText.bareNames (decorativeTextEntries lettering) := by
  simp [decorativeTextEntries, Kind.bareNames]

theorem entriesQuotable_styleTransform (transform : StyleTransform) :
    EntriesQuotable Kind.styleTransform.bareNames (styleTransformEntries transform) := by
  have hbackground : IsEscaped
      (if transform.transparentBackground then "transparent" else "white").toList := by
    split <;> exact IsOrdinary.isEscaped (by decide)
  simp [styleTransformEntries, hbackground, Kind.bareNames]

theorem quotable_infoSections (infographic : Infographic) :
    (Value.list (infoSections infographic)).Quotable bare :=
  quotable_records fun _ _ => by simp

theorem entriesQuotable_infographic (infographic : Infographic) :
    EntriesQuotable Kind.infographic.bareNames (infographicEntries infographic) := by
  simp [infographicEntries, quotable_infoSections, Kind.bareNames]

theorem isEscaped_panelLabel (i : Nat) : IsEscaped (panelLabel i).toList := by
  rw [panelLabel]
  cases hlabel : panelLabels[i]? with
  | none => exact (Text.isOrdinary_toString_nat (i + 1)).isEscaped
  | some label =>
      have hlabels : ∀ label ∈ panelLabels, IsOrdinary label.toList := by decide
      exact (hlabels label (List.mem_of_getElem? hlabel)).isEscaped

/-- The words around a file name in a reference change nothing. -/
theorem isEscaped_characterReference (slot : Nat) (character : Character) :
    IsEscaped (characterReference slot character).toList ↔
      IsEscaped (Text.fileName character.imagePath).toList := by
  have hattached : IsOrdinary ("see attached image " ++ toString slot).toList := by
    rw [String.toList_append]
    exact IsOrdinary.append (by decide) (Text.isOrdinary_toString_nat slot)
  rw [characterReference]
  by_cases hfile : (Text.fileName character.imagePath).isEmpty = true
  · rw [if_pos hfile, String.isEmpty_iff.1 hfile]
    exact ⟨fun _ => .nil, fun _ => hattached.isEscaped⟩
  · have hopening : IsOrdinary (("see attached image " ++ toString slot).toList ++ " (".toList) :=
      hattached.append (by decide)
    rw [if_neg hfile, String.toList_append, String.toList_append, String.toList_append]
    show IsEscaped (_ ++ [')']) ↔ _
    rw [Text.isEscaped_concat_plain (by decide), hopening.isEscaped_append]

theorem quotable_comicCharacter {slot : Nat} {character : Character}
    (h : IsEscaped (Text.fileName character.imagePath).toList) :
    ∀ record ∈ comicCharacter slot character, EntriesQuotable bare record.entries := by
  intro record hrecord
  rw [comicCharacter] at hrecord
  split at hrecord
  · cases List.mem_singleton.1 hrecord
    refine entriesQuotable_ofList ?_
    simp [(isEscaped_characterReference slot character).2 h]
  · cases hrecord

theorem quotable_speech {comic : FourPanel} {speech : Speech} {record : Record}
    (h : speechRecord? comic speech = some record) :
    EntriesQuotable Kind.fourPanel.bareNames record.entries := by
  rw [speechRecord?] at h
  split at h
  · cases h
  · obtain ⟨name, _, rfl⟩ := Option.map_eq_some_iff.1 h
    refine entriesQuotable_ofList ?_
    simp [Kind.bareNames]

theorem quotable_panel (comic : FourPanel) (i : Nat) (panel : Panel) :
    EntriesQuotable Kind.fourPanel.bareNames (panelRecord comic i panel).entries := by
  have hspeeches : (Value.list (panel.speeches.filterMap (speechRecord? comic))).Quotable
      Kind.fourPanel.bareNames := by
    refine .list fun item hitem => ?_
    obtain ⟨speech, _, hspeech⟩ := List.mem_filterMap.1 hitem
    exact quotable_speech hspeech
  have hnarration : EntriesQuotable Kind.fourPanel.bareNames
      (if panel.narration.isEmpty then [] else [quoted "narration" panel.narration]) := by
    split <;> simp
  refine entriesQuotable_ofList ?_
  rw [entriesQuotable_append]
  refine ⟨?_, hnarration⟩
  simp [isEscaped_panelLabel, hspeeches]

theorem quotable_panels (comic : FourPanel) (i : Nat) (panels : List Panel) :
    ∀ record ∈ panelRecords comic i panels,
      EntriesQuotable Kind.fourPanel.bareNames record.entries := by
  induction panels generalizing i with
  | nil =>
      intro record hrecord
      cases hrecord
  | cons panel panels ih =>
      exact List.forall_mem_cons.2 ⟨quotable_panel comic i panel, ih (i + 1)⟩

theorem entriesQuotable_fourPanel (comic : FourPanel)
    (h : ∀ character ∈ [comic.character1, comic.character2],
      IsEscaped (Text.fileName character.imagePath).toList) :
    EntriesQuotable Kind.fourPanel.bareNames (fourPanelEntries comic) := by
  obtain ⟨hfirst, hrest⟩ := List.forall_mem_cons.1 h
  obtain ⟨hsecond, _⟩ := List.forall_mem_cons.1 hrest
  have hcharacters : (Value.list (comicCharacter 1 comic.character1 ++
      comicCharacter 2 comic.character2)).Quotable Kind.fourPanel.bareNames :=
    .list (List.forall_mem_append.2
      ⟨quotable_comicCharacter hfirst, quotable_comicCharacter hsecond⟩)
  have hpanels : (Value.list (panelRecords comic 0 comic.panels)).Quotable
      Kind.fourPanel.bareNames :=
    .list (quotable_panels comic 0 comic.panels)
  simp [fourPanelEntries, hcharacters, hpanels]

end Binding

/-- The free texts that a kind puts between quotes as they stand need no escaping. -/
def Kind.NeedsNoEscape : Kind → State → Prop
  | outfitSheet, state => ∀ outfit ∈ state.outfit,
    outfit.useOutfitBuilder = true → IsEscaped outfit.outfitShape.toList
  | fourPanel, state => ∀ comic ∈ state.fourPanel,
    ∀ character ∈ [comic.character1, comic.character2],
      IsEscaped (Text.fileName character.imagePath).toList
  | faceSheet, _ => True
  | bodySheet, _ => True
  | pose, _ => True
  | sceneBuilder, _ => True
  | background, _ => True
  | decorativeText, _ => True
  | styleTransform, _ => True
  | infographic, _ => True

open Binding in
theorem Kind.quotable_bind {kind : Kind} {state : State} (h : kind.NeedsNoEscape state) :
    (kind.bind state).Quotable kind.bareNames := by
  cases kind with
  | faceSheet => exact quotable_withBlock (fun sheet _ => entriesQuotable_faceSheet _ sheet) state
  | bodySheet => exact quotable_withBlock (fun sheet _ => entriesQuotable_bodySheet _ sheet) state
  | outfitSheet =>
      exact quotable_withBlock (fun outfit houtfit => entriesQuotable_outfit outfit (h outfit houtfit))
        state
  | pose => exact quotable_withBlock (fun pose _ => entriesQuotable_pose pose) state
  | sceneBuilder => exact quotable_withBlock (fun scene _ => entriesQuotable_scene scene) state
  | background =>
      exact quotable_withBlock (fun background _ => entriesQuotable_background background) state
  | decorativeText =>
      exact quotable_withBlock (fun lettering _ => entriesQuotable_decorativeText lettering) state
  | fourPanel =>
      exact quotable_withBlock (fun comic hcomic => entriesQuotable_fourPanel comic (h comic hcomic))
        state
  | styleTransform =>
      exact quotable_withBlock (fun transform _ => entriesQuotable_styleTransform transform) state
  | infographic =>
      exact quotable_withBlock (fun settings _ => entriesQuotable_infographic settings) state

end PromptSheet
