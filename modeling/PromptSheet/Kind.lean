import PromptSheet.State
import PromptSheet.Text.Blank

/-!
The kinds of documents, and the selection key under which the catalog lists the sections of each. A
kind with several modes has a key for each of them; the state says which mode is on.
-/

namespace PromptSheet

inductive Kind where
  | faceSheet
  | bodySheet
  | outfitSheet
  | pose
  | sceneBuilder
  | background
  | decorativeText
  | fourPanel
  | styleTransform
  | infographic
deriving DecidableEq, Repr

namespace Kind

def all : List Kind :=
  [faceSheet, bodySheet, outfitSheet, pose, sceneBuilder, background, decorativeText, fourPanel,
    styleTransform, infographic]

def name : Kind → String
  | faceSheet => "face_sheet"
  | bodySheet => "body_sheet"
  | outfitSheet => "outfit_sheet"
  | pose => "pose"
  | sceneBuilder => "scene_builder"
  | background => "background"
  | decorativeText => "decorative_text"
  | fourPanel => "four_panel"
  | styleTransform => "style_transform"
  | infographic => "infographic"

def selectionKeys : Kind → List String
  | outfitSheet => ["outfit_sheet_preset", "outfit_sheet_reference"]
  | pose => ["pose_preset", "pose_reference"]
  | sceneBuilder => ["scene_builder_story", "scene_builder_battle", "scene_builder_boss_raid"]
  | background => ["background_with_reference", "background_without_reference"]
  | styleTransform => ["style_transform_normal", "style_transform_transparent"]
  | faceSheet => ["face_sheet"]
  | bodySheet => ["body_sheet"]
  | decorativeText => ["decorative_text"]
  | fourPanel => ["four_panel"]
  | infographic => ["infographic"]

def given {α : Type} (block : Option α) (p : α → Bool) : Bool :=
  block.any p

def selectionKey (kind : Kind) (state : State) : String :=
  match kind with
  | outfitSheet =>
    if given state.outfit (fun outfit => !outfit.useOutfitBuilder) then "outfit_sheet_reference"
    else "outfit_sheet_preset"
  | pose => if given state.pose Pose.usePoseCapture then "pose_reference" else "pose_preset"
  | sceneBuilder =>
    match (state.sceneBuilder.map Scene.sceneType).getD .story with
    | .story => "scene_builder_story"
    | .battle => "scene_builder_battle"
    | .bossRaid => "scene_builder_boss_raid"
  | background =>
    if given state.background Background.usesReference then "background_with_reference"
    else "background_without_reference"
  | styleTransform =>
    if given state.styleTransform StyleTransform.transparentBackground then
      "style_transform_transparent"
    else "style_transform_normal"
  | faceSheet => "face_sheet"
  | bodySheet => "body_sheet"
  | decorativeText => "decorative_text"
  | fourPanel => "four_panel"
  | infographic => "infographic"

theorem selectionKey_mem (kind : Kind) (state : State) :
    kind.selectionKey state ∈ kind.selectionKeys := by
  cases kind with
  | outfitSheet | pose | sceneBuilder | background | styleTransform =>
      simp only [selectionKey, selectionKeys]
      split <;> decide
  | faceSheet | bodySheet | decorativeText | fourPanel | infographic => exact List.mem_cons_self

/-- Reads a kind's name. Blanks around it do not count, and a dash stands for an underscore. -/
def ofName? (name : String) : Option Kind :=
  let wanted :=
    String.ofList ((Text.trim name.toList).map fun c => if c = '-' then '_' else c)
  all.find? (fun kind => kind.name == wanted)

end Kind

end PromptSheet
