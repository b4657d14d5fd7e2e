import PromptSheet.Catalog

/-!
Whether the selections of a catalog can be shown: each must belong to an output type that exists and
list sections that exist. Some sections may be missing without being an issue.
-/

namespace PromptSheet

inductive Issue where
  | missingSection (key name : String)
  | unknownOutputType (key outputType : String)
  | emptySelection (key : String)
deriving DecidableEq, Repr

def Issue.message : Issue → String
  | .missingSection key name => key ++ ": section `" ++ name ++ "` is not defined"
  | .unknownOutputType key outputType => key ++ ": unknown output type `" ++ outputType ++ "`"
  | .emptySelection key => key ++ ": no sections listed"

namespace Catalog

/-- The sections that may be listed without being defined, unless it is said otherwise. -/
def usualOptional : List String :=
  ["title_overlay", "reference_image", "bonus_character"]

def issuesOf (catalog : Catalog) (optional : List String) (key : String) (selection : Selection) :
    List Issue :=
  let outputType := selection.outputType.getD key
  (if (catalog.outputType? outputType).isNone then [.unknownOutputType key outputType] else []) ++
  (if selection.sections.isEmpty then [.emptySelection key] else []) ++
  (selection.sections.filter fun name =>
    (catalog.section? outputType name).isNone && !optional.contains name).map (.missingSection key)

def issues (catalog : Catalog) (optional : List String) : List Issue :=
  catalog.selectionMap.selections.entries.flatMap fun entry =>
    catalog.issuesOf optional entry.1 entry.2

end Catalog

end PromptSheet
