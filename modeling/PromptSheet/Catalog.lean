import PromptSheet.Store

/-!
The catalog: for each output type the sections that its documents are made of, with the values that
belong to the type itself, and for each selection key the sections to show, in order. A section is
looked for in its output type first and then in the common table. Label tables turn the value of a
setting into words.
-/

namespace PromptSheet

structure Section where
  description : Option String := none
  template : String

structure OutputType where
  headerValues : Dict Value := {}
  /-- Bound as `type`. -/
  typeValue : Option String := none
  /-- Bound as the record `output`. -/
  outputValues : Option (Dict Value) := none
  hasGenerationInstructions : Option Bool := none
  sections : Dict Section := {}

structure MasterTemplate where
  version : String := ""
  commonSections : Dict Section := {}
  outputTypes : Dict OutputType := {}

structure Selection where
  /-- The output type, if it is not the one named like the key. -/
  outputType : Option String := none
  mode : Option String := none
  sceneType : Option String := none
  hasGenerationInstructions : Option Bool := none
  sections : List String := []

structure SelectionMap where
  version : String := ""
  selections : Dict Selection := {}
  /-- Tables from the values of a setting to labels, each under the name of its setting. -/
  labels : Dict (Dict String) := {}

structure Catalog where
  master : MasterTemplate := {}
  selectionMap : SelectionMap := {}

namespace Catalog

instance : Inhabited Catalog := ⟨{}⟩

def selection? (catalog : Catalog) (key : String) : Option Selection :=
  catalog.selectionMap.selections.get? key

def sectionsFor? (catalog : Catalog) (key : String) : Option (List String) :=
  (catalog.selection? key).map Selection.sections

def outputType? (catalog : Catalog) (name : String) : Option OutputType :=
  catalog.master.outputTypes.get? name

/-- The section of an output type, else the common one. -/
def section? (catalog : Catalog) (outputType name : String) : Option Section :=
  match (catalog.outputType? outputType).bind fun type => type.sections.get? name with
  | some found => some found
  | none => catalog.master.commonSections.get? name

def outputTypeFor? (catalog : Catalog) (key : String) : Option String :=
  (catalog.selection? key).map fun selection => selection.outputType.getD key

def selectionKeys (catalog : Catalog) : List String :=
  catalog.selectionMap.selections.keys

def outputTypes (catalog : Catalog) : List String :=
  catalog.master.outputTypes.keys

end Catalog

end PromptSheet
