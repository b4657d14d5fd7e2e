import PromptSheet.Catalog
import PromptSheet.Document.Reading
import PromptSheet.Document.Value
import PromptSheet.Error
import PromptSheet.Yaml.Place

/-!
Reading the two documents of a catalog. Everything may be left out except for the template of a
section; the values that an output type binds may be of any shape.
-/

namespace PromptSheet

open Yaml (Place)

namespace Catalog

def format : Format Place :=
  Place.format

def readOptionalText (place : Place) : Reading (Option String) :=
  format.readOptional format.readText place

def readOptionalFlag (place : Place) : Reading (Option Bool) :=
  format.readOptional format.readFlag place

/-- A value stands four collections deep in its document. -/
def readValue (place : Place) : Reading Value :=
  Yaml.Value.toValue <$> place.value (Yaml.Document.depthLimit - 4)

def readValues (place : Place) : Reading (Dict Value) :=
  format.readTable readValue place

def readLabels (place : Place) : Reading (Dict String) :=
  format.readTable format.readText place

end Catalog

namespace Section

/-- A section whose template may still be missing. -/
structure Draft where
  description : Option String := none
  template : Option String := none

def Draft.section? (draft : Draft) : Option Section :=
  draft.template.map fun template => { description := draft.description, template }

def slots : Slots Place Draft :=
  [Format.slot "description" Catalog.readOptionalText fun value draft =>
    { draft with description := value },
   Format.slot "template" Catalog.format.readText fun value draft =>
    { draft with template := some value }]

def read (place : Place) : Reading Section := do
  let draft ← Catalog.format.readRecord slots {} place
  draft.section?

end Section

namespace OutputType

def slots : Slots Place OutputType :=
  [Format.slot "header_values" Catalog.readValues fun value type =>
    { type with headerValues := value },
   Format.slot "type_value" Catalog.readOptionalText fun value type =>
    { type with typeValue := value },
   Format.slot "output_values" (Catalog.format.readOptional Catalog.readValues) fun value type =>
    { type with outputValues := value },
   Format.slot "has_generation_instructions" Catalog.readOptionalFlag fun value type =>
    { type with hasGenerationInstructions := value },
   Format.slot "sections" (Catalog.format.readTable Section.read) fun value type =>
    { type with sections := value }]

def read (place : Place) : Reading OutputType :=
  Catalog.format.readRecord slots {} place

end OutputType

namespace MasterTemplate

def slots : Slots Place MasterTemplate :=
  [Format.slot "version" Catalog.format.readText fun value master =>
    { master with version := value },
   Format.slot "common_sections" (Catalog.format.readTable Section.read) fun value master =>
    { master with commonSections := value },
   Format.slot "output_types" (Catalog.format.readTable OutputType.read) fun value master =>
    { master with outputTypes := value }]

def read (place : Place) : Reading MasterTemplate :=
  Catalog.format.readRecord slots {} place

end MasterTemplate

namespace Selection

def slots : Slots Place Selection :=
  [Format.slot "output_type_key" Catalog.readOptionalText fun value selection =>
    { selection with outputType := value },
   Format.slot "mode" Catalog.readOptionalText fun value selection =>
    { selection with mode := value },
   Format.slot "scene_type" Catalog.readOptionalText fun value selection =>
    { selection with sceneType := value },
   Format.slot "has_generation_instructions" Catalog.readOptionalFlag fun value selection =>
    { selection with hasGenerationInstructions := value },
   Format.slot "sections" (Catalog.format.readList Catalog.format.readText) fun value selection =>
    { selection with sections := value }]

def read (place : Place) : Reading Selection :=
  Catalog.format.readRecord slots {} place

end Selection

namespace SelectionMap

def slots : Slots Place SelectionMap :=
  [Format.slot "version" Catalog.format.readText fun value selectionMap =>
    { selectionMap with version := value },
   Format.slot "selection_map" (Catalog.format.readTable Selection.read) fun value selectionMap =>
    { selectionMap with selections := value },
   Format.slot "variable_mappings" (Catalog.format.readTable Catalog.readLabels)
    fun value selectionMap => { selectionMap with labels := value }]

def read (place : Place) : Reading SelectionMap :=
  Catalog.format.readRecord slots {} place

end SelectionMap

namespace Catalog

/-- Reads a catalog from its two texts, the master template first. -/
def read (master selection : String) : Except Error Catalog :=
  match (Yaml.Document.read? master).bind (·.readWith? MasterTemplate.read) with
  | none => .error (.invalid .master)
  | some master =>
    match (Yaml.Document.read? selection).bind (·.readWith? SelectionMap.read) with
    | none => .error (.invalid .selection)
    | some selectionMap => .ok { master, selectionMap }

end Catalog

end PromptSheet
