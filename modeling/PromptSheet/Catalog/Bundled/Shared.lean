import PromptSheet.Catalog
import PromptSheet.Template.Print

/-!
The sections of the bundled catalog that every output type shares. Each is written as the tree of
its template; the template is the text of the tree.
-/

namespace PromptSheet

/-- A section whose template is the text of a tree. -/
def Section.ofNodes (description : Option String) (nodes : List Template.Node) : Section :=
  { description, template := Template.print nodes }

end PromptSheet

namespace PromptSheet.Bundled

open Template (Node)

def antiHallucination : List Node :=
  [Node.lines
     ["anti_hallucination:",
      "  - \"Do NOT add text or labels unless requested\"",
      "  - \"Do NOT add borders or frames\"",
      "  - \"Do NOT add decorative elements that were not described\""]]

def characterStyle : List Node :=
  [.text "character_style:\n  style: \"", .slot "style_info_style",
   .text "\"\n  proportions: \"", .slot "style_info_proportions",
   .text "\"\n  style_description: \"", .slot "style_info_description", .text "\"\n"]

def constraints : List Node :=
  [Node.lines
     ["constraints:",
      "  - \"Keep the design consistent across every view\"",
      "  - \"Use clean linework suitable for reference\"",
      "  - \"Do not crop the subject at the image edge\""]]

def header : List Node :=
  [.text "# ", .slot "header_comment", .text "\ntype: ", .slot "type",
   .text "\ntitle: \"", .slot "title", .text "\"",
   Node.when "author"
     [.text "\nauthor: \"", .slot "author", .text "\""],
   .text "\n"]

def output : List Node :=
  [.text "output:\n  format: \"", .slot "output.format", .text "\"\n  background: \"",
   .slot "output.background", .text "\"\n  text_overlay: \"",
   .slot "output.text_overlay", .text "\"\n"]

def style : List Node :=
  [.text "style:\n  output_style: ", .slot "output_style", .text "\n  color_mode: ",
   .slot "color_mode",
   Node.when "is_duotone"
     [.text "\n  duotone: \"", .slot "duotone_style", .text "\""],
   .text "\n  aspect_ratio: \"", .slot "aspect_ratio", .text "\"\n"]

def titleOverlay : List Node :=
  [Node.when "title_overlay_enabled"
     [.text "title_overlay:\n  enabled: true\n  text: \"", .slot "title", .text "\"",
      Node.when "author"
        [.text "\n  author: \"", .slot "author", .text "\""],
      .text "\n  placement: \"top, clear of the subject\""]]

def sharedSections : Dict Section := .ofSorted
  [("anti_hallucination", .ofNodes "Things the model must not add" antiHallucination),
   ("character_style", .ofNodes "Proportions for character sheets" characterStyle),
   ("constraints", .ofNodes "Generic layout constraints" constraints),
   ("header", .ofNodes "Document comment, type, title and author" header),
   ("output", .ofNodes "Output format from the output type's output_values" output),
   ("style", .ofNodes "Rendering style and color mode" style),
   ("title_overlay", .ofNodes "Title drawn into the image when enabled" titleOverlay)]

end PromptSheet.Bundled
