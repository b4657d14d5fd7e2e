import PromptSheet.Catalog.FillIn
import PromptSheet.Catalog.Issue
import PromptSheet.Error
import PromptSheet.Prune
import PromptSheet.Template.Rendering

/-!
Assembling a document: the listed sections of a selection, each rendered on its own against the same
store and joined by newlines. Sections that are defined nowhere are passed over. A section may
include others by their names.
-/

namespace PromptSheet

abbrev Outcome :=
  Logged Error String

structure Settings where
  /-- Sections that may be listed without being defined. -/
  optional : List String := Catalog.usualOptional
  prunes : Bool := false
  /-- How deep inclusions may nest. -/
  limit : Nat := 10
deriving DecidableEq, Repr

/-- Renders a template; what is wrong with it is said of the template, also where the fault lies in
one that it includes. -/
def renderTemplate (renderer : Template.Renderer) (name template : String) (store : Store) :
    Outcome :=
  (renderer.renderText template store).mapError (.parse name)

namespace Catalog

def inclusions (catalog : Catalog) (outputType name : String) : Template.Found :=
  match catalog.section? outputType name with
  | some found => .source found.template
  | none => .missing

def renderer (catalog : Catalog) (settings : Settings) (outputType : String) : Template.Renderer :=
  { source := some (catalog.inclusions outputType), limit := settings.limit }

def renderSection (catalog : Catalog) (settings : Settings) (outputType name : String)
    (store : Store) : Outcome :=
  match catalog.section? outputType name with
  | none => .fail (.unknownSection name)
  | some found => renderTemplate (catalog.renderer settings outputType) name found.template store

def missingWarnings (settings : Settings) (outputType key name : String) : List Warning :=
  if settings.optional.contains name then [] else [.sectionNotFound name outputType key]

/-- Renders the defined ones among some listed sections, up to the first that fails. -/
def renderSections (catalog : Catalog) (settings : Settings) (outputType key : String)
    (store : Store) : List String → Logged Error (List String)
  | [] => .ofValue []
  | name :: rest =>
    if (catalog.section? outputType name).isSome then
      (catalog.renderSection settings outputType name store).andThen fun text =>
        (renderSections catalog settings outputType key store rest).map (text :: ·)
    else
      let others := renderSections catalog settings outputType key store rest
      { others with
        warnings := missingWarnings settings outputType key name ++ others.warnings }

def joinSections (settings : Settings) (texts : List String) : String :=
  let document := "\n".intercalate texts
  if settings.prunes then prune document else document

/-- The document of an output type and a selection, made from the values of a store and of the
catalog. -/
def assemble (catalog : Catalog) (settings : Settings) (outputType key : String) (store : Store) :
    Outcome :=
  match catalog.sectionsFor? key with
  | none => .fail (.unknownOutputType key)
  | some [] => .fail (.unknownOutputType key)
  | some names =>
    (catalog.renderSections settings outputType key (catalog.fillIn outputType key store) names).map
      (joinSections settings)

end Catalog

end PromptSheet
