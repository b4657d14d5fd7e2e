import PromptSheet.Binding.Shared

/-!
The bindings of the character sheets: face, body, outfit and pose.
-/

namespace PromptSheet.Binding

/-- A character without a name is called a character. -/
def sheetName (sheet : FaceSheet) : String :=
  if sheet.characterName.isEmpty then "Character" else sheet.characterName

def faceSheetEntries (style : OutputStyle) (sheet : FaceSheet) : List Entry :=
  [quoted "character_name" (sheetName sheet),
   folded "character_description" sheet.appearanceDescription,
   word "expression" "neutral expression"] ++
  styleEntries style ++
  image "reference_image_path" sheet.referenceImagePath

def faceSheet (state : State) : Store :=
  withBlock state.faceSheet (faceSheetEntries state.outputStyle) state

def bodySheetEntries (style : OutputStyle) (sheet : BodySheet) : List Entry :=
  image "face_sheet_path" sheet.faceSheetImagePath ++
  [word "body_type" sheet.bodyType,
   word "bust_feature" sheet.bustFeature,
   word "render_type" sheet.renderType] ++
  unlessBlank (folded "additional_description" sheet.additionalDescription) ++
  styleEntries style

def bodySheet (state : State) : Store :=
  withBlock state.bodySheet (bodySheetEntries state.outputStyle) state

def outfitEntries (outfit : Outfit) : List Entry :=
  image "body_sheet_path" outfit.bodySheetImagePath ++
  [flag "is_reference_mode" (!outfit.useOutfitBuilder)] ++
  (if outfit.useOutfitBuilder then
    [word "outfit_category" outfit.outfitCategory,
     word "outfit_shape" outfit.outfitShape,
     word "outfit_color" outfit.outfitColor,
     word "outfit_pattern" outfit.outfitPattern,
     word "outfit_style" outfit.outfitStyle]
  else
    [quoted "outfit_image_path" (Text.fileName outfit.referenceOutfitImagePath),
     word "fit_mode" outfit.fitMode,
     flag "include_headwear" outfit.includeHeadwear] ++
    unlessBlank (folded "reference_description" outfit.referenceDescription)) ++
  unlessBlank (folded "additional_description" outfit.additionalDescription)

def outfitSheet (state : State) : Store :=
  withBlock state.outfit outfitEntries state

def poseEntries (pose : Pose) : List Entry :=
  image "outfit_sheet_path" pose.outfitSheetImagePath ++
  [flag "is_reference_mode" pose.usePoseCapture] ++
  (if pose.usePoseCapture then
    [quoted "pose_image_path" (Text.fileName pose.poseReferenceImagePath)]
  else [word "pose_preset" pose.preset]) ++
  [word "eye_line" pose.eyeLine, word "expression" pose.expression] ++
  unlessBlank (quoted "expression_detail" (trimText pose.expressionDetail)) ++
  unlessBlank (quoted "action_description" (trimText pose.actionDescription)) ++
  [flag "include_effects" pose.includeEffects,
   flag "transparent_background" pose.transparentBackground,
   word "wind_effect" pose.windEffect]

def pose (state : State) : Store :=
  withBlock state.pose poseEntries state

end PromptSheet.Binding
