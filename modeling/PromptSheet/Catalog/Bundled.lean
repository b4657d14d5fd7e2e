import PromptSheet.Catalog.Bundled.Comic
import PromptSheet.Catalog.Bundled.Picture
import PromptSheet.Catalog.Bundled.Sheet

/-!
The bundled catalog. It needs no files: sections, selections and labels are data of the library. The
tables are in the order of their keys.
-/

namespace PromptSheet.Bundled

def outputTypes : Dict OutputType := .ofSorted
  [("background", background),
   ("body_sheet", bodySheet),
   ("decorative_text", decorativeText),
   ("face_sheet", faceSheet),
   ("four_panel", fourPanel),
   ("infographic", infographic),
   ("outfit_sheet", outfitSheet),
   ("pose", pose),
   ("scene_builder", sceneBuilder),
   ("style_transform", styleTransform)]

def master : MasterTemplate where
  version := "1.0"
  commonSections := sharedSections
  outputTypes

def faceSheetSelection : Selection where
  outputType := "face_sheet"
  sections :=
    ["header", "style", "layout", "character", "character_style", "reference_image", "output",
     "constraints", "anti_hallucination", "title_overlay"]

def bodySheetSelection : Selection where
  outputType := "body_sheet"
  sections :=
    ["header", "style", "reference", "body", "character_style", "output", "constraints",
     "anti_hallucination", "title_overlay"]

def outfitSheetPresetSelection : Selection where
  outputType := "outfit_sheet"
  mode := "preset"
  sections :=
    ["header", "style", "base", "outfit", "output", "constraints", "anti_hallucination",
     "title_overlay"]

def outfitSheetReferenceSelection : Selection where
  outputType := "outfit_sheet"
  mode := "reference"
  sections :=
    ["header", "style", "base", "outfit", "reference_image", "output", "constraints",
     "anti_hallucination", "title_overlay"]

def posePresetSelection : Selection where
  outputType := "pose"
  mode := "preset"
  sections :=
    ["header", "style", "reference", "pose", "effects", "output", "anti_hallucination",
     "title_overlay"]

def poseReferenceSelection : Selection where
  outputType := "pose"
  mode := "reference"
  sections :=
    ["header", "style", "reference", "pose", "effects", "output", "anti_hallucination",
     "title_overlay"]

def sceneBuilderStorySelection : Selection where
  outputType := "scene_builder"
  sceneType := "story"
  sections :=
    ["header", "style", "scene", "characters", "narration", "output", "title_overlay"]

def sceneBuilderBattleSelection : Selection where
  outputType := "scene_builder"
  sceneType := "battle"
  sections :=
    ["header", "style", "scene", "characters", "battle_effects", "output", "title_overlay"]

def sceneBuilderBossRaidSelection : Selection where
  outputType := "scene_builder"
  sceneType := "boss_raid"
  sections :=
    ["header", "style", "scene", "characters", "boss", "bonus_character", "battle_effects",
     "output", "title_overlay"]

def backgroundWithReferenceSelection : Selection where
  outputType := "background"
  mode := "with_reference"
  sections :=
    ["header", "style", "reference", "background", "output", "anti_hallucination",
     "title_overlay"]

def backgroundWithoutReferenceSelection : Selection where
  outputType := "background"
  mode := "without_reference"
  sections :=
    ["header", "style", "background", "output", "anti_hallucination", "title_overlay"]

def decorativeTextSelection : Selection where
  outputType := "decorative_text"
  sections :=
    ["header", "style", "text", "background", "output"]

def fourPanelSelection : Selection where
  outputType := "four_panel"
  sections :=
    ["header", "style", "layout", "characters", "panels", "output", "title_overlay"]

def styleTransformNormalSelection : Selection where
  outputType := "style_transform"
  mode := "normal"
  sections :=
    ["header", "source", "transform", "output"]

def styleTransformTransparentSelection : Selection where
  outputType := "style_transform"
  mode := "transparent"
  sections :=
    ["header", "source", "transform", "output"]

def infographicSelection : Selection where
  outputType := "infographic"
  hasGenerationInstructions := some true
  sections :=
    ["header", "style", "content", "characters", "sections", "output", "title_overlay"]

def selections : Dict Selection := .ofSorted
  [("background_with_reference", backgroundWithReferenceSelection),
   ("background_without_reference", backgroundWithoutReferenceSelection),
   ("body_sheet", bodySheetSelection),
   ("decorative_text", decorativeTextSelection),
   ("face_sheet", faceSheetSelection),
   ("four_panel", fourPanelSelection),
   ("infographic", infographicSelection),
   ("outfit_sheet_preset", outfitSheetPresetSelection),
   ("outfit_sheet_reference", outfitSheetReferenceSelection),
   ("pose_preset", posePresetSelection),
   ("pose_reference", poseReferenceSelection),
   ("scene_builder_battle", sceneBuilderBattleSelection),
   ("scene_builder_boss_raid", sceneBuilderBossRaidSelection),
   ("scene_builder_story", sceneBuilderStorySelection),
   ("style_transform_normal", styleTransformNormalSelection),
   ("style_transform_transparent", styleTransformTransparentSelection)]

def eyeLineLabels : Dict String := .ofSorted
  [("down", "looking downward"),
   ("front", "looking straight at the viewer"),
   ("side", "looking off to the side"),
   ("up", "looking upward")]

def textTypeLabels : Dict String := .ofSorted
  [("catchphrase", "energetic hand-lettered catchphrase"),
   ("message_window", "retro game message window"),
   ("name_tag", "clean nameplate with a thin frame"),
   ("skill_name", "bold game skill name with glowing outline")]

def windEffectLabels : Dict String := .ofSorted
  [("none", ""),
   ("strong", "strong wind, hair and clothes flowing dramatically"),
   ("weak", "light breeze, hair and clothes sway slightly")]

def selectionMap : SelectionMap where
  version := "1.0"
  selections
  labels := .ofSorted
    [("eye_line", eyeLineLabels),
     ("text_type", textTypeLabels),
     ("wind_effect", windEffectLabels)]

end PromptSheet.Bundled

namespace PromptSheet

def Catalog.bundled : Catalog :=
  { master := Bundled.master, selectionMap := Bundled.selectionMap }

end PromptSheet
