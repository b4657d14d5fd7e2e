import PromptSheet.Document.Codec
import PromptSheet.State

/-!
How a state is written: a table of fields for every record, in the order in which they are written.
-/

namespace PromptSheet

def ColorMode.codec : Codec ColorMode :=
  .choice ColorMode.all ColorMode.name

def DuotoneColor.codec : Codec DuotoneColor :=
  .choice DuotoneColor.all DuotoneColor.name

def OutputStyle.codec : Codec OutputStyle :=
  .choice OutputStyle.all OutputStyle.name

def AspectRatio.codec : Codec AspectRatio :=
  .choice AspectRatio.all AspectRatio.name

def SceneType.codec : Codec SceneType :=
  .choice SceneType.all SceneType.name

def Speaker.codec : Codec Speaker :=
  .choice Speaker.all Speaker.name

def FaceSheet.fields : List (Field FaceSheet) :=
  [.of "character_name" .text (·.characterName) fun v s => { s with characterName := v },
   .of "appearance_description" .text (·.appearanceDescription) fun v s =>
      { s with appearanceDescription := v },
   .of "reference_image_path" .text (·.referenceImagePath) fun v s =>
      { s with referenceImagePath := v }]

def FaceSheet.codec : Codec FaceSheet :=
  .record {} FaceSheet.fields

def BodySheet.fields : List (Field BodySheet) :=
  [.of "face_sheet_image_path" .text (·.faceSheetImagePath) fun v s =>
      { s with faceSheetImagePath := v },
   .of "body_type" .text (·.bodyType) fun v s => { s with bodyType := v },
   .of "bust_feature" .text (·.bustFeature) fun v s => { s with bustFeature := v },
   .of "render_type" .text (·.renderType) fun v s => { s with renderType := v },
   .of "additional_description" .text (·.additionalDescription) fun v s =>
      { s with additionalDescription := v }]

def BodySheet.codec : Codec BodySheet :=
  .record {} BodySheet.fields

def Outfit.fields : List (Field Outfit) :=
  [.of "body_sheet_image_path" .text (·.bodySheetImagePath) fun v s =>
      { s with bodySheetImagePath := v },
   .of "use_outfit_builder" .flag (·.useOutfitBuilder) fun v s => { s with useOutfitBuilder := v },
   .of "reference_outfit_image_path" .text (·.referenceOutfitImagePath) fun v s =>
      { s with referenceOutfitImagePath := v },
   .of "fit_mode" .text (·.fitMode) fun v s => { s with fitMode := v },
   .of "include_headwear" .flag (·.includeHeadwear) fun v s => { s with includeHeadwear := v },
   .of "reference_description" .text (·.referenceDescription) fun v s =>
      { s with referenceDescription := v },
   .of "outfit_category" .text (·.outfitCategory) fun v s => { s with outfitCategory := v },
   .of "outfit_shape" .text (·.outfitShape) fun v s => { s with outfitShape := v },
   .of "outfit_color" .text (·.outfitColor) fun v s => { s with outfitColor := v },
   .of "outfit_pattern" .text (·.outfitPattern) fun v s => { s with outfitPattern := v },
   .of "outfit_style" .text (·.outfitStyle) fun v s => { s with outfitStyle := v },
   .of "additional_description" .text (·.additionalDescription) fun v s =>
      { s with additionalDescription := v }]

def Outfit.codec : Codec Outfit :=
  .record {} Outfit.fields

def Pose.fields : List (Field Pose) :=
  [.of "outfit_sheet_image_path" .text (·.outfitSheetImagePath) fun v s =>
      { s with outfitSheetImagePath := v },
   .of "use_pose_capture" .flag (·.usePoseCapture) fun v s => { s with usePoseCapture := v },
   .of "pose_reference_image_path" .text (·.poseReferenceImagePath) fun v s =>
      { s with poseReferenceImagePath := v },
   .of "preset" .text (·.preset) fun v s => { s with preset := v },
   .of "eye_line" .text (·.eyeLine) fun v s => { s with eyeLine := v },
   .of "expression" .text (·.expression) fun v s => { s with expression := v },
   .of "expression_detail" .text (·.expressionDetail) fun v s => { s with expressionDetail := v },
   .of "action_description" .text (·.actionDescription) fun v s =>
      { s with actionDescription := v },
   .of "include_effects" .flag (·.includeEffects) fun v s => { s with includeEffects := v },
   .of "transparent_background" .flag (·.transparentBackground) fun v s =>
      { s with transparentBackground := v },
   .of "wind_effect" .text (·.windEffect) fun v s => { s with windEffect := v }]

def Pose.codec : Codec Pose :=
  .record {} Pose.fields

def Character.fields : List (Field Character) :=
  [.of "name" .text (·.name) fun v s => { s with name := v },
   .of "image_path" .text (·.imagePath) fun v s => { s with imagePath := v },
   .of "description" .text (·.description) fun v s => { s with description := v }]

def Character.codec : Codec Character :=
  .record {} Character.fields

def Scene.fields : List (Field Scene) :=
  [.of "scene_type" SceneType.codec (·.sceneType) fun v s => { s with sceneType := v },
   .of "background_image_path" .text (·.backgroundImagePath) fun v s =>
      { s with backgroundImagePath := v },
   .of "scene_description" .text (·.sceneDescription) fun v s => { s with sceneDescription := v },
   .of "characters" (.list Character.codec) (·.characters) fun v s => { s with characters := v },
   .of "narration" .text (·.narration) fun v s => { s with narration := v }]

def Scene.codec : Codec Scene :=
  .record {} Scene.fields

def Background.fields : List (Field Background) :=
  [.of "use_reference_image" .flag (·.useReferenceImage) fun v s =>
      { s with useReferenceImage := v },
   .of "reference_image_path" .text (·.referenceImagePath) fun v s =>
      { s with referenceImagePath := v },
   .of "description" .text (·.description) fun v s => { s with description := v }]

def Background.codec : Codec Background :=
  .record {} Background.fields

def DecorativeText.fields : List (Field DecorativeText) :=
  [.of "text" .text (·.text) fun v s => { s with text := v },
   .of "text_type" .text (·.textType) fun v s => { s with textType := v },
   .of "transparent_background" .flag (·.transparentBackground) fun v s =>
      { s with transparentBackground := v }]

def DecorativeText.codec : Codec DecorativeText :=
  .record {} DecorativeText.fields

def Speech.fields : List (Field Speech) :=
  [.of "speaker" Speaker.codec (·.speaker) fun v s => { s with speaker := v },
   .of "text" .text (·.text) fun v s => { s with text := v },
   .of "position" .text (·.position) fun v s => { s with position := v }]

def Speech.codec : Codec Speech :=
  .record {} Speech.fields

def Panel.fields : List (Field Panel) :=
  [.of "scene" .text (·.scene) fun v s => { s with scene := v },
   .of "speeches" (.list Speech.codec) (·.speeches) fun v s => { s with speeches := v },
   .of "narration" .text (·.narration) fun v s => { s with narration := v }]

def Panel.codec : Codec Panel :=
  .record {} Panel.fields

def FourPanel.fields : List (Field FourPanel) :=
  [.of "character1" Character.codec (·.character1) fun v s => { s with character1 := v },
   .of "character2" Character.codec (·.character2) fun v s => { s with character2 := v },
   .of "panels" (.list Panel.codec) (·.panels) fun v s => { s with panels := v }]

def FourPanel.codec : Codec FourPanel :=
  .record {} FourPanel.fields

def StyleTransform.fields : List (Field StyleTransform) :=
  [.of "source_image_path" .text (·.sourceImagePath) fun v s => { s with sourceImagePath := v },
   .of "transform_type" .text (·.transformType) fun v s => { s with transformType := v },
   .of "transparent_background" .flag (·.transparentBackground) fun v s =>
      { s with transparentBackground := v }]

def StyleTransform.codec : Codec StyleTransform :=
  .record {} StyleTransform.fields

def InfoSection.fields : List (Field InfoSection) :=
  [.of "title" .text (·.title) fun v s => { s with title := v },
   .of "content" .text (·.content) fun v s => { s with content := v }]

def InfoSection.codec : Codec InfoSection :=
  .record {} InfoSection.fields

def Infographic.fields : List (Field Infographic) :=
  [.of "infographic_style" .text (·.infographicStyle) fun v s => { s with infographicStyle := v },
   .of "output_language" .text (·.outputLanguage) fun v s => { s with outputLanguage := v },
   .of "main_title" .text (·.mainTitle) fun v s => { s with mainTitle := v },
   .of "subtitle" .text (·.subtitle) fun v s => { s with subtitle := v },
   .of "main_character_image_path" .text (·.mainCharacterImagePath) fun v s =>
      { s with mainCharacterImagePath := v },
   .of "sub_character_image_path" .text (·.subCharacterImagePath) fun v s =>
      { s with subCharacterImagePath := v },
   .of "sections" (.list InfoSection.codec) (·.sections) fun v s => { s with sections := v }]

def Infographic.codec : Codec Infographic :=
  .record {} Infographic.fields

def State.fields : List (Field State) :=
  [.of "title" .text (·.title) fun v s => { s with title := v },
   .of "author" .text (·.author) fun v s => { s with author := v },
   .of "color_mode" ColorMode.codec (·.colorMode) fun v s => { s with colorMode := v },
   .of "duotone_color" DuotoneColor.codec (·.duotoneColor) fun v s => { s with duotoneColor := v },
   .of "output_style" OutputStyle.codec (·.outputStyle) fun v s => { s with outputStyle := v },
   .of "aspect_ratio" AspectRatio.codec (·.aspectRatio) fun v s => { s with aspectRatio := v },
   .of "include_title_in_image" .flag (·.includeTitleInImage) fun v s =>
      { s with includeTitleInImage := v },
   .of "face_sheet" (.optional FaceSheet.codec) (·.faceSheet) fun v s => { s with faceSheet := v },
   .of "body_sheet" (.optional BodySheet.codec) (·.bodySheet) fun v s => { s with bodySheet := v },
   .of "outfit" (.optional Outfit.codec) (·.outfit) fun v s => { s with outfit := v },
   .of "pose" (.optional Pose.codec) (·.pose) fun v s => { s with pose := v },
   .of "scene_builder" (.optional Scene.codec) (·.sceneBuilder) fun v s =>
      { s with sceneBuilder := v },
   .of "background" (.optional Background.codec) (·.background) fun v s =>
      { s with background := v },
   .of "decorative_text" (.optional DecorativeText.codec) (·.decorativeText) fun v s =>
      { s with decorativeText := v },
   .of "four_panel" (.optional FourPanel.codec) (·.fourPanel) fun v s => { s with fourPanel := v },
   .of "style_transform" (.optional StyleTransform.codec) (·.styleTransform) fun v s =>
      { s with styleTransform := v },
   .of "infographic" (.optional Infographic.codec) (·.infographic) fun v s =>
      { s with infographic := v }]

def State.codec : Codec State :=
  .record {} State.fields

end PromptSheet
