import PromptSheet.Catalog

/-!
What a catalog adds to the values that a document is made from: the values that belong to its output
type and selection, and the labels of settings. Nothing that is already bound is replaced.
-/

namespace PromptSheet

def generationFlag (flag : Option Bool) : List (String × Value) :=
  (flag.map fun on => ("has_generation_instructions", Value.flag on)).toList

def OutputType.bindings (type : OutputType) : List (String × Value) :=
  type.headerValues.entries ++
  (type.typeValue.map fun value => ("type", Value.text value)).toList ++
  (type.outputValues.map fun values => ("output", Value.record values)).toList ++
  generationFlag type.hasGenerationInstructions

def Selection.bindings (selection : Selection) : List (String × Value) :=
  generationFlag selection.hasGenerationInstructions

def labelName (setting : String) : String :=
  setting ++ "_label"

def label? (store : Store) (setting : String) (labels : Dict String) : Option String :=
  (store.getText? setting).bind labels.get?

def addLabel (store : Store) (setting : String) (labels : Dict String) : Store :=
  if store.isBound (labelName setting) then store
  else
    match label? store setting labels with
    | none => store
    | some label => store.set (labelName setting) (.text label)

namespace Catalog

/-- The values of an output type; where the selection says something else, it is right. -/
def staticValues (catalog : Catalog) (outputType key : String) : Store :=
  (Store.ofList ((catalog.outputType? outputType).map OutputType.bindings |>.getD [])).setAll
    ((catalog.selection? key).map Selection.bindings |>.getD [])

/-- Binds labels, table by table, so that a label can itself be looked up in a later table. -/
def addLabels (catalog : Catalog) (store : Store) : Store :=
  catalog.selectionMap.labels.entries.foldl
    (fun store table => addLabel store table.1 table.2) store

def fillIn (catalog : Catalog) (outputType key : String) (store : Store) : Store :=
  catalog.addLabels (store.mergeMissing (catalog.staticValues outputType key))

end Catalog

end PromptSheet
