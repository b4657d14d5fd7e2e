import PromptSheet.Catalog.Bundled.Shared

/-!
The bundled output types of the character sheets: face, body, outfit and pose.
-/

namespace PromptSheet.Bundled

open Template (Node)

namespace FaceSheet

def character : List Node :=
  [.text "character:\n  name: \"", .slot "character_name",
   .text "\"\n  description: \"", .slot "character_description",
   .text "\"\n  outfit: \"NONE - bare skin only, no clothing\"\n  expression: \"",
   .slot "expression", .text "\"\n"]

def layout : List Node :=
  [Node.lines
     ["layout:",
      "  arrangement: \"triangular, inverted triangle formation\"",
      "  direction: \"all views facing LEFT\"",
      "  views:",
      "    - \"top-left: front view, eyes looking at viewer\"",
      "    - \"top-right: 3/4 left view, head turned 45 degrees\"",
      "    - \"bottom-center: left profile, exact 90-degree side view\""]]

def referenceImage : List Node :=
  [Node.when "reference_image_path"
     [.text "reference_image:\n  file: \"", .slot "reference_image_path",
      .text "\"\n  usage: \"match the face shape and hairstyle of the attached image\""]]

end FaceSheet

def faceSheet : OutputType where
  headerValues := .ofSorted [("header_comment", .text "Face Character Reference Sheet")]
  typeValue := "character_design"
  outputValues := some (.ofSorted
    [("background", .text "pure white, clean, seamless, no borders"),
     ("format", .text "reference sheet with multiple views"),
     ("text_overlay", .text "NONE - no text, labels, or titles on the image")])
  hasGenerationInstructions := some false
  sections := .ofSorted
    [("character", .ofNodes none FaceSheet.character),
     ("layout", .ofNodes none FaceSheet.layout),
     ("reference_image", .ofNodes "Only rendered with a reference image" FaceSheet.referenceImage)]

namespace BodySheet

def body : List Node :=
  [.text "body:\n  type: ", .slot "body_type", .text "\n  bust: ", .slot "bust_feature",
   .text "\n  render: ", .slot "render_type",
   Node.when "additional_description"
     [.text "\n  notes: \"", .slot "additional_description", .text "\""],
   .text "\n"]

def reference : List Node :=
  [.text "reference:\n  face_sheet: \"", .slot "face_sheet_path",
   .text "\"\n  usage: \"keep the face exactly as in the attached face sheet\"\n"]

end BodySheet

def bodySheet : OutputType where
  headerValues := .ofSorted [("header_comment", .text "Body Reference Sheet")]
  typeValue := "character_design"
  outputValues := some (.ofSorted
    [("background", .text "pure white, clean, seamless, no borders"),
     ("format", .text "full body reference sheet, front, side and back views"),
     ("text_overlay", .text "NONE - no text, labels, or titles on the image")])
  sections := .ofSorted
    [("body", .ofNodes none BodySheet.body),
     ("reference", .ofNodes none BodySheet.reference)]

namespace OutfitSheet

def base : List Node :=
  [.text "base_body:\n  body_sheet: \"", .slot "body_sheet_path",
   .text "\"\n  usage: \"dress the body from the attached body sheet, keep proportions\"\n"]

def outfit : List Node :=
  [.text "outfit:",
   Node.either "is_reference_mode"
     [.text "\n  mode: reference\n  reference_image: \"", .slot "outfit_image_path",
      .text "\"\n  fit_mode: ", .slot "fit_mode", .text "\n  include_headwear: ",
      .slot "include_headwear",
      Node.when "reference_description"
        [.text "\n  description: \"", .slot "reference_description", .text "\""]]
     [.text "\n  mode: preset\n  category: ", .slot "outfit_category",
      .text "\n  shape: \"", .slot "outfit_shape", .text "\"\n  color: ",
      .slot "outfit_color", .text "\n  pattern: ", .slot "outfit_pattern",
      .text "\n  style: ", .slot "outfit_style"],
   Node.when "additional_description"
     [.text "\n  notes: \"", .slot "additional_description", .text "\""],
   .text "\n"]

end OutfitSheet

def outfitSheet : OutputType where
  headerValues := .ofSorted [("header_comment", .text "Outfit Reference Sheet")]
  typeValue := "character_design"
  outputValues := some (.ofSorted
    [("background", .text "pure white, clean, seamless, no borders"),
     ("format", .text "full body reference sheet wearing the outfit"),
     ("text_overlay", .text "NONE - no text, labels, or titles on the image")])
  sections := .ofSorted
    [("base", .ofNodes none OutfitSheet.base),
     ("outfit", .ofNodes none OutfitSheet.outfit)]

namespace Pose

def effects : List Node :=
  [.text "effects:\n  visual_effects: ", .slot "include_effects",
   .text "\n  transparent_background: ", .slot "transparent_background",
   .text "\n  wind: ", .slot "wind_effect",
   Node.when "wind_effect_label"
     [.text "\n  wind_detail: \"", .slot "wind_effect_label", .text "\""],
   .text "\n"]

def pose : List Node :=
  [.text "pose:",
   Node.whenNot "is_reference_mode"
     [.text "\n  preset: ", .slot "pose_preset"],
   .text "\n  eye_line: ", .slot "eye_line",
   Node.when "eye_line_label"
     [.text "\n  eye_line_detail: \"", .slot "eye_line_label", .text "\""],
   .text "\n  expression: ", .slot "expression",
   Node.when "expression_detail"
     [.text "\n  expression_detail: \"", .slot "expression_detail", .text "\""],
   Node.when "action_description"
     [.text "\n  action: \"", .slot "action_description", .text "\""],
   .text "\n"]

def reference : List Node :=
  [.text "reference:\n  outfit_sheet: \"", .slot "outfit_sheet_path", .text "\"",
   Node.when "is_reference_mode"
     [.text "\n  pose_image: \"", .slot "pose_image_path",
      .text "\"\n  usage: \"copy the pose of the attached image, keep the character design\""],
   .text "\n"]

end Pose

def pose : OutputType where
  headerValues := .ofSorted [("header_comment", .text "Character Pose")]
  typeValue := "character_pose"
  outputValues := some (.ofSorted
    [("background", .text "simple, uncluttered"),
     ("format", .text "single character illustration")])
  sections := .ofSorted
    [("effects", .ofNodes none Pose.effects),
     ("pose", .ofNodes none Pose.pose),
     ("reference", .ofNodes none Pose.reference)]

end PromptSheet.Bundled
