import Mathlib.Data.List.Forall2
import PromptSheet.Engine

/-!
# Documents and the places of images

An image is known to a document by its file name alone, and a path only says besides whether there is
an image at all. So when images are moved to other directories, nothing changes: not the selection,
not what is bound, and not the document or what goes wrong while it is made. Nor does a document look
at the settings of another kind.
-/

namespace PromptSheet

/-- Paths to a file of one name in any two directories, or no paths at all. A path may be given and
have no file name, so the names alone do not say whether there is one. -/
structure Text.Moved (first second : String) : Prop where
  isEmpty_eq : first.isEmpty = second.isEmpty
  fileName_eq : fileName first = fileName second

open Text (Moved)

def FaceSheet.Moved (sheet other : FaceSheet) : Prop :=
  ∃ image, Text.Moved sheet.referenceImagePath image ∧
    other = { sheet with referenceImagePath := image }

def BodySheet.Moved (sheet other : BodySheet) : Prop :=
  ∃ image, Text.Moved sheet.faceSheetImagePath image ∧
    other = { sheet with faceSheetImagePath := image }

def Outfit.Moved (outfit other : Outfit) : Prop :=
  ∃ body reference, Text.Moved outfit.bodySheetImagePath body ∧
    Text.Moved outfit.referenceOutfitImagePath reference ∧
    other = { outfit with bodySheetImagePath := body, referenceOutfitImagePath := reference }

def Pose.Moved (pose other : Pose) : Prop :=
  ∃ outfit reference, Text.Moved pose.outfitSheetImagePath outfit ∧
    Text.Moved pose.poseReferenceImagePath reference ∧
    other = { pose with outfitSheetImagePath := outfit, poseReferenceImagePath := reference }

def Character.Moved (character other : Character) : Prop :=
  ∃ image, Text.Moved character.imagePath image ∧ other = { character with imagePath := image }

def Scene.Moved (scene other : Scene) : Prop :=
  ∃ image characters, Text.Moved scene.backgroundImagePath image ∧
    List.Forall₂ Character.Moved scene.characters characters ∧
    other = { scene with backgroundImagePath := image, characters := characters }

def Background.Moved (background other : Background) : Prop :=
  ∃ image, Text.Moved background.referenceImagePath image ∧
    other = { background with referenceImagePath := image }

def FourPanel.Moved (comic other : FourPanel) : Prop :=
  ∃ character1 character2, comic.character1.Moved character1 ∧ comic.character2.Moved character2 ∧
    other = { comic with character1 := character1, character2 := character2 }

def StyleTransform.Moved (transform other : StyleTransform) : Prop :=
  ∃ image, Text.Moved transform.sourceImagePath image ∧
    other = { transform with sourceImagePath := image }

def Infographic.Moved (infographic other : Infographic) : Prop :=
  ∃ main sub, Text.Moved infographic.mainCharacterImagePath main ∧
    Text.Moved infographic.subCharacterImagePath sub ∧
    other = { infographic with mainCharacterImagePath := main, subCharacterImagePath := sub }

/-- The settings that every document shares are the same. -/
structure State.SameShared (state other : State) : Prop where
  title : state.title = other.title
  author : state.author = other.author
  colorMode : state.colorMode = other.colorMode
  duotoneColor : state.duotoneColor = other.duotoneColor
  outputStyle : state.outputStyle = other.outputStyle
  aspectRatio : state.aspectRatio = other.aspectRatio
  includeTitleInImage : state.includeTitleInImage = other.includeTitleInImage

/-- The settings for a kind are missing in both states, or the same but for the directories of
images. -/
def Kind.BlockMoved (kind : Kind) (state other : State) : Prop :=
  match kind with
  | faceSheet => Option.Rel FaceSheet.Moved state.faceSheet other.faceSheet
  | bodySheet => Option.Rel BodySheet.Moved state.bodySheet other.bodySheet
  | outfitSheet => Option.Rel Outfit.Moved state.outfit other.outfit
  | pose => Option.Rel Pose.Moved state.pose other.pose
  | sceneBuilder => Option.Rel Scene.Moved state.sceneBuilder other.sceneBuilder
  | background => Option.Rel Background.Moved state.background other.background
  | decorativeText => Option.Rel (· = ·) state.decorativeText other.decorativeText
  | fourPanel => Option.Rel FourPanel.Moved state.fourPanel other.fourPanel
  | styleTransform => Option.Rel StyleTransform.Moved state.styleTransform other.styleTransform
  | infographic => Option.Rel Infographic.Moved state.infographic other.infographic

namespace Binding

theorem image_congr {first second : String} (h : Moved first second) (name : String) :
    image name first = image name second := by
  rw [image, image, h.fileName_eq]

theorem sharedEntries_congr {state other : State} (h : state.SameShared other) :
    sharedEntries state = sharedEntries other := by
  rw [sharedEntries, sharedEntries, h.title, h.author, h.colorMode, h.duotoneColor, h.outputStyle,
    h.aspectRatio, h.includeTitleInImage]

theorem withBlock_congr {α : Type} {related : α → α → Prop} {block block' : Option α}
    {entries entries' : α → List Entry} {state other : State} (hshared : state.SameShared other)
    (hblock : Option.Rel related block block')
    (hentries : ∀ settings settings', related settings settings' →
      entries settings = entries' settings') :
    withBlock block entries state = withBlock block' entries' other := by
  have hstore : shared state = shared other := congrArg Store.ofList (sharedEntries_congr hshared)
  cases hblock with
  | none => exact hstore
  | some h => rw [withBlock, withBlock, hstore, hentries _ _ h]

theorem faceSheetEntries_congr (style : OutputStyle) (sheet other : FaceSheet)
    (h : sheet.Moved other) : faceSheetEntries style sheet = faceSheetEntries style other := by
  obtain ⟨image, himage, rfl⟩ := h
  rw [faceSheetEntries, image_congr himage]
  rfl

theorem bodySheetEntries_congr (style : OutputStyle) (sheet other : BodySheet)
    (h : sheet.Moved other) : bodySheetEntries style sheet = bodySheetEntries style other := by
  obtain ⟨image, himage, rfl⟩ := h
  rw [bodySheetEntries, image_congr himage]
  rfl

theorem outfitEntries_congr (outfit other : Outfit) (h : outfit.Moved other) :
    outfitEntries outfit = outfitEntries other := by
  obtain ⟨body, reference, hbody, hreference, rfl⟩ := h
  rw [outfitEntries, image_congr hbody, hreference.fileName_eq]
  rfl

theorem poseEntries_congr (pose other : Pose) (h : pose.Moved other) :
    poseEntries pose = poseEntries other := by
  obtain ⟨outfit, reference, houtfit, hreference, rfl⟩ := h
  rw [poseEntries, image_congr houtfit, hreference.fileName_eq]
  rfl

theorem isCharacterGiven_congr {character other : Character} (h : character.Moved other) :
    isCharacterGiven character = isCharacterGiven other := by
  obtain ⟨image, himage, rfl⟩ := h
  rw [isCharacterGiven, himage.isEmpty_eq]
  rfl

theorem sceneCharacter_congr {character other : Character} (h : character.Moved other) :
    sceneCharacter character = sceneCharacter other := by
  obtain ⟨image, himage, rfl⟩ := h
  rw [sceneCharacter, himage.fileName_eq]
  rfl

/-- Whether a character is left out is decided alike before and after the move. -/
theorem sceneCharacters_congr {characters others : List Character}
    (h : List.Forall₂ Character.Moved characters others) :
    (characters.filter isCharacterGiven).map sceneCharacter =
      (others.filter isCharacterGiven).map sceneCharacter := by
  induction h with
  | nil => rfl
  | @cons character other characters others hcharacter _ ih =>
      rw [List.filter_cons, List.filter_cons, isCharacterGiven_congr hcharacter]
      split
      · rw [List.map_cons, List.map_cons, sceneCharacter_congr hcharacter, ih]
      · exact ih

theorem sceneEntries_congr (scene other : Scene) (h : scene.Moved other) :
    sceneEntries scene = sceneEntries other := by
  obtain ⟨image, characters, himage, hcharacters, rfl⟩ := h
  have hlist : sceneCharacters scene = sceneCharacters { scene with characters := characters } :=
    sceneCharacters_congr hcharacters
  rw [sceneEntries, image_congr himage, hlist]
  rfl

theorem usesReference_congr {background other : Background} (h : background.Moved other) :
    background.usesReference = other.usesReference := by
  obtain ⟨image, himage, rfl⟩ := h
  rw [Background.usesReference, himage.isEmpty_eq]
  rfl

theorem backgroundEntries_congr (background other : Background) (h : background.Moved other) :
    backgroundEntries background = backgroundEntries other := by
  have huses := usesReference_congr h
  obtain ⟨image, himage, rfl⟩ := h
  rw [backgroundEntries, backgroundEntries, huses, himage.fileName_eq]

theorem comicCharacter_congr {character other : Character} (h : character.Moved other)
    (slot : Nat) : comicCharacter slot character = comicCharacter slot other := by
  have hgiven := isCharacterGiven_congr h
  obtain ⟨image, himage, rfl⟩ := h
  have hreference : characterReference slot character =
      characterReference slot { character with imagePath := image } := by
    rw [characterReference, characterReference, himage.fileName_eq]
  rw [comicCharacter, comicCharacter, hgiven, hreference]
  rfl

theorem speakerName?_congr {comic other : FourPanel} (h : comic.Moved other) :
    speakerName? comic = speakerName? other := by
  obtain ⟨_, _, ⟨_, _, rfl⟩, ⟨_, _, rfl⟩, rfl⟩ := h
  funext speaker
  cases speaker <;> rfl

theorem speechRecord?_congr {comic other : FourPanel} (h : comic.Moved other) :
    speechRecord? comic = speechRecord? other := by
  funext speech
  rw [speechRecord?, speechRecord?, speakerName?_congr h]

theorem panelRecords_congr {comic other : FourPanel} (h : comic.Moved other) (i : Nat)
    (panels : List Panel) : panelRecords comic i panels = panelRecords other i panels := by
  induction panels generalizing i with
  | nil => rfl
  | cons panel rest ih =>
      rw [panelRecords, panelRecords, panelRecord, panelRecord, speechRecord?_congr h, ih]

theorem fourPanelEntries_congr (comic other : FourPanel) (h : comic.Moved other) :
    fourPanelEntries comic = fourPanelEntries other := by
  have hpanels := panelRecords_congr h 0 comic.panels
  obtain ⟨character1, character2, h1, h2, rfl⟩ := h
  rw [fourPanelEntries, hpanels, comicCharacter_congr h1, comicCharacter_congr h2]
  rfl

theorem styleTransformEntries_congr (transform other : StyleTransform)
    (h : transform.Moved other) :
    styleTransformEntries transform = styleTransformEntries other := by
  obtain ⟨image, himage, rfl⟩ := h
  rw [styleTransformEntries, image_congr himage]
  rfl

theorem infographicEntries_congr (infographic other : Infographic) (h : infographic.Moved other) :
    infographicEntries infographic = infographicEntries other := by
  obtain ⟨main, sub, hmain, hsub, rfl⟩ := h
  rw [infographicEntries, image_congr hmain, image_congr hsub, hsub.fileName_eq]
  rfl

end Binding

namespace Kind

variable {kind : Kind} {state other : State}

theorem bind_congr (hshared : state.SameShared other) (hblock : kind.BlockMoved state other) :
    kind.bind state = kind.bind other := by
  cases kind with
  | faceSheet =>
      refine Binding.withBlock_congr hshared hblock fun sheet sheet' h => ?_
      rw [← hshared.outputStyle]
      exact Binding.faceSheetEntries_congr state.outputStyle sheet sheet' h
  | bodySheet =>
      refine Binding.withBlock_congr hshared hblock fun sheet sheet' h => ?_
      rw [← hshared.outputStyle]
      exact Binding.bodySheetEntries_congr state.outputStyle sheet sheet' h
  | outfitSheet => exact Binding.withBlock_congr hshared hblock Binding.outfitEntries_congr
  | pose => exact Binding.withBlock_congr hshared hblock Binding.poseEntries_congr
  | sceneBuilder => exact Binding.withBlock_congr hshared hblock Binding.sceneEntries_congr
  | background => exact Binding.withBlock_congr hshared hblock Binding.backgroundEntries_congr
  | decorativeText =>
      exact Binding.withBlock_congr hshared hblock fun _ _ => congrArg Binding.decorativeTextEntries
  | fourPanel => exact Binding.withBlock_congr hshared hblock Binding.fourPanelEntries_congr
  | styleTransform =>
      exact Binding.withBlock_congr hshared hblock Binding.styleTransformEntries_congr
  | infographic => exact Binding.withBlock_congr hshared hblock Binding.infographicEntries_congr

section Block

variable {α β : Type} {related : α → α → Prop} {block block' : Option α}

theorem map_congr (hblock : Option.Rel related block block') {f : α → β}
    (hf : ∀ settings settings', related settings settings' → f settings = f settings') :
    block.map f = block'.map f := by
  cases hblock with
  | none => rfl
  | some h => exact congrArg some (hf _ _ h)

theorem given_congr (hblock : Option.Rel related block block') {p : α → Bool}
    (hp : ∀ settings settings', related settings settings' → p settings = p settings') :
    given block p = given block' p := by
  cases hblock with
  | none => rfl
  | some h => exact hp _ _ h

end Block

/-- No mode depends on more than whether an image is given. -/
theorem selectionKey_congr (hblock : kind.BlockMoved state other) :
    kind.selectionKey state = kind.selectionKey other := by
  cases kind with
  | outfitSheet =>
      have hbuilder := given_congr (p := fun outfit => !outfit.useOutfitBuilder) hblock <| by
        rintro _ _ ⟨_, _, _, _, h⟩
        rw [h]
      rw [selectionKey, selectionKey, hbuilder]
  | pose =>
      have hcapture := given_congr (p := Pose.usePoseCapture) hblock <| by
        rintro _ _ ⟨_, _, _, _, h⟩
        rw [h]
      rw [selectionKey, selectionKey, hcapture]
  | sceneBuilder =>
      have htype := map_congr (f := Scene.sceneType) hblock <| by
        rintro _ _ ⟨_, _, _, _, h⟩
        rw [h]
      rw [selectionKey, selectionKey, htype]
  | background =>
      rw [selectionKey, selectionKey, given_congr hblock fun _ _ => Binding.usesReference_congr]
  | styleTransform =>
      have htransparent := given_congr (p := StyleTransform.transparentBackground) hblock <| by
        rintro _ _ ⟨_, _, h⟩
        rw [h]
      rw [selectionKey, selectionKey, htransparent]
  | faceSheet | bodySheet | decorativeText | fourPanel | infographic => rfl

end Kind

/-- **Moving images to other directories changes no document.** The engine may have any source, any
settings and any catalog loaded; both documents are made of the same files. -/
theorem Engine.generate_moved (source : Catalog.Source) (settings : Settings)
    (loaded : Option Catalog) (files : FileTree) {kind : Kind} {state other : State}
    (hshared : state.SameShared other) (hblock : kind.BlockMoved state other) :
    let engine : Engine := { source, settings, loaded }
    kind.selectionKey state = kind.selectionKey other ∧
      engine.generate files kind state = engine.generate files kind other := by
  intro engine
  have hkey := Kind.selectionKey_congr hblock
  refine ⟨hkey, ?_⟩
  rw [generate, generate, hkey, generateForKey_of_builtin rfl, generateForKey_of_builtin rfl,
    Kind.bind_congr hshared hblock]

def homeScene : Scene :=
  { sceneType := .battle
    backgroundImagePath := "/home/aki/pictures/arena.png"
    characters := [{ imagePath := "aki.png" }, {}, { name := "Ren", imagePath := ".." }] }

/-- The same pictures elsewhere, and a path that still has no file name. -/
def sharedScene : Scene :=
  { sceneType := .battle
    backgroundImagePath := "shared/arena.png/"
    characters := [{ imagePath := "/srv/aki.png" }, {}, { name := "Ren", imagePath := "/" }] }

theorem Engine.generate_moved_scene :
    let engine : Engine := { source := .files "master.yaml" "selection.yaml" }
    let state : State := { sceneBuilder := some homeScene }
    let other : State :=
      { sceneBuilder := some sharedScene, faceSheet := some { characterName := "Mio" } }
    state.SameShared other ∧ Kind.sceneBuilder.BlockMoved state other ∧
      Kind.sceneBuilder.selectionKey state = Kind.sceneBuilder.selectionKey other ∧
      engine.generate {} .sceneBuilder state = engine.generate {} .sceneBuilder other := by
  intro engine state other
  have hshared : state.SameShared other := ⟨rfl, rfl, rfl, rfl, rfl, rfl, rfl⟩
  have hblock : Kind.sceneBuilder.BlockMoved state other :=
    .some ⟨_, _, ⟨by decide, by decide⟩,
      .cons ⟨_, ⟨by decide, by decide⟩, rfl⟩ (.cons ⟨_, ⟨by decide, by decide⟩, rfl⟩
        (.cons ⟨_, ⟨by decide, by decide⟩, rfl⟩ .nil)), rfl⟩
  exact ⟨hshared, hblock, Engine.generate_moved _ {} none {} hshared hblock⟩

end PromptSheet
