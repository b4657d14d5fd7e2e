import PromptSheet.Catalog.Bundled.Shared

/-!
The bundled output types of the pictures: scene, background, lettering and style transform.
-/

namespace PromptSheet.Bundled

open Template (Node)

namespace SceneBuilder

def battleEffects : List Node :=
  [Node.lines
     ["battle_effects:",
      "  - \"dynamic camera angle\"",
      "  - \"speed lines and impact flashes\"",
      "  - \"debris and energy trails\""]]

def boss : List Node :=
  [Node.lines
     ["boss:",
      "  scale: \"towering over the party\"",
      "  presence: \"dominant, center of the composition\"",
      "  party_position: \"foreground, facing the boss\""]]

def characters : List Node :=
  [.text "characters:",
   .loop "characters"
     [.text "\n  - slot: ", .slot "@index_1", .text "\n    name: \"", .slot "name",
      .text "\"\n    image: \"", .slot "image", .text "\"\n    description: \"",
      .slot "description", .text "\""],
   .text "\n"]

def narration : List Node :=
  [Node.when "narration"
     [.text "narration:\n  text: \"", .slot "narration",
      .text "\"\n  placement: \"caption box at the bottom\""]]

def scene : List Node :=
  [.text "scene:\n  type: ", .slot "scene_type",
   Node.when "background_image_path"
     [.text "\n  background_image: \"", .slot "background_image_path", .text "\""],
   Node.when "scene_description"
     [.text "\n  description: \"", .slot "scene_description", .text "\""],
   .text "\n"]

end SceneBuilder

def sceneBuilder : OutputType where
  headerValues := .ofSorted [("header_comment", .text "Scene")]
  typeValue := "scene"
  outputValues := some (.ofSorted
    [("background", .text "from the attached background image"),
     ("format", .text "single scene illustration")])
  sections := .ofSorted
    [("battle_effects", .ofNodes none SceneBuilder.battleEffects),
     ("boss", .ofNodes none SceneBuilder.boss),
     ("characters", .ofNodes none SceneBuilder.characters),
     ("narration", .ofNodes none SceneBuilder.narration),
     ("scene", .ofNodes none SceneBuilder.scene)]

namespace Background

def background : List Node :=
  [.text "background:\n  description: \"", .slot "background_description",
   .text "\"\n  characters: \"NONE - no people or creatures\"\n"]

def reference : List Node :=
  [.text "reference:\n  image: \"", .slot "reference_image_path",
   Node.lines
     ["\"",
      "  usage: \"keep the layout of the attached image, redraw it in the target style\""]]

end Background

def background : OutputType where
  headerValues := .ofSorted [("header_comment", .text "Background")]
  typeValue := "background"
  outputValues := some (.ofSorted
    [("background", .text "full scene"),
     ("format", .text "background illustration without characters")])
  sections := .ofSorted
    [("background", .ofNodes none Background.background),
     ("reference", .ofNodes none Background.reference)]

namespace DecorativeText

def background : List Node :=
  [.text "background:\n  transparent: ", .slot "transparent_background",
   Node.whenNot "transparent_background"
     [.text "\n  fill: \"plain white\""],
   .text "\n"]

def text : List Node :=
  [.text "text:\n  content: \"", .slot "text_content", .text "\"\n  type: ",
   .slot "text_type",
   Node.when "text_type_label"
     [.text "\n  design: \"", .slot "text_type_label", .text "\""],
   .text "\n"]

end DecorativeText

def decorativeText : OutputType where
  headerValues := .ofSorted [("header_comment", .text "Decorative Text")]
  typeValue := "decorative_text"
  outputValues := some (.ofSorted
    [("format", .text "stylized text graphic")])
  sections := .ofSorted
    [("background", .ofNodes none DecorativeText.background),
     ("text", .ofNodes none DecorativeText.text)]

namespace StyleTransform

def source : List Node :=
  [.text "source:\n  image: \"", .slot "source_image_path",
   .text "\"\n  usage: \"keep the character, pose and composition of the attached image\"\n"]

def transform : List Node :=
  [.text "transform:\n  type: ", .slot "transform_type", .text "\n  background: ",
   .slot "output_background", .text "\n"]

end StyleTransform

def styleTransform : OutputType where
  headerValues := .ofSorted [("header_comment", .text "Style Transform")]
  typeValue := "style_transform"
  outputValues := some (.ofSorted
    [("format", .text "the source image redrawn in the target style")])
  sections := .ofSorted
    [("source", .ofNodes none StyleTransform.source),
     ("transform", .ofNodes none StyleTransform.transform)]

end PromptSheet.Bundled
