import PromptSheet.Catalog.Bundled.Shared

/-!
The bundled output types of the pages made of parts: comic strip and infographic.
-/

namespace PromptSheet.Bundled

open Template (Node)

namespace FourPanel

def characters : List Node :=
  [.text "characters:",
   .loop "characters"
     [.text "\n  - name: \"", .slot "name", .text "\"\n    reference: \"",
      .slot "reference", .text "\"\n    description: \"", .slot "description",
      .text "\""],
   .text "\n"]

def layout : List Node :=
  [Node.lines
     ["layout:",
      "  panels: 4",
      "  direction: \"top to bottom\"",
      "  gutters: \"thin white gutters\""]]

def panels : List Node :=
  [.text "panels:",
   .loop "panels"
     [.text "\n  - panel: ", .slot "panel_number", .text "\n    label: ", .slot "label",
      .text "\n    prompt: \"", .slot "prompt", .text "\"",
      Node.when "narration"
        [.text "\n    narration: \"", .slot "narration", .text "\""],
      Node.when "speeches"
        [.text "\n    speeches:",
         .loop "speeches"
           [.text "\n      - character: \"", .slot "character",
            .text "\"\n        content: \"", .slot "content",
            .text "\"\n        position: ", .slot "position"]]],
   .text "\n"]

end FourPanel

def fourPanel : OutputType where
  headerValues := .ofSorted [("header_comment", .text "Four Panel Comic")]
  typeValue := "four_panel_manga"
  outputValues := some (.ofSorted
    [("background", .text "white gutters between panels"),
     ("format", .text "four vertical panels, read top to bottom")])
  sections := .ofSorted
    [("characters", .ofNodes none FourPanel.characters),
     ("layout", .ofNodes none FourPanel.layout),
     ("panels", .ofNodes none FourPanel.panels)]

namespace Infographic

def characters : List Node :=
  [.text "characters:\n  main: \"", .slot "main_character_image_path", .text "\"",
   Node.when "sub_character_enabled"
     [.text "\n  sub: \"", .slot "sub_character_image_path", .text "\""],
   .text "\n"]

def content : List Node :=
  [.text "infographic:\n  style: ", .slot "infographic_style", .text "\n  language: ",
   .slot "output_language", .text "\n  main_title: \"", .slot "main_title",
   .text "\"\n  subtitle: \"", .slot "subtitle", .text "\"\n"]

def infoSections : List Node :=
  [.text "sections:",
   .loop "info_sections"
     [.text "\n  - number: ", .slot "@index_1", .text "\n    title: \"", .slot "title",
      .text "\"\n    content: \"", .slot "content", .text "\""],
   .text "\n"]

end Infographic

def infographic : OutputType where
  headerValues := .ofSorted [("header_comment", .text "Infographic")]
  typeValue := "infographic"
  outputValues := some (.ofSorted
    [("background", .text "clean, light"),
     ("format", .text "single page infographic")])
  hasGenerationInstructions := some true
  sections := .ofSorted
    [("characters", .ofNodes none Infographic.characters),
     ("content", .ofNodes none Infographic.content),
     ("sections", .ofNodes none Infographic.infoSections)]

end PromptSheet.Bundled
