import Mathlib.Control.Monad.Basic
import Mathlib.Logic.Relation
import PromptSheet.Engine

/-!
# What a document sees of its catalog

A document looks a section up by its name, whether the section is listed or included, and takes the
template of what it finds. In which of the two tables that was, how the section is described and what
the tables of other output types hold cannot be told from it.
-/

namespace PromptSheet

namespace Catalog

variable {catalog first second third : Catalog} {outputType key name : String} {type : OutputType}

def template? (catalog : Catalog) (outputType name : String) : Option String :=
  (catalog.section? outputType name).map Section.template

/-- Two catalogs that an output type and a selection cannot tell apart. -/
structure LooksLike (first second : Catalog) (outputType key : String) : Prop where
  selection : first.selection? key = second.selection? key
  staticValues : first.staticValues outputType key = second.staticValues outputType key
  labels : first.selectionMap.labels = second.selectionMap.labels
  template : ∀ name, first.template? outputType name = second.template? outputType name

namespace LooksLike

theorem refl (catalog : Catalog) (outputType key : String) :
    catalog.LooksLike catalog outputType key :=
  ⟨rfl, rfl, rfl, fun _ => rfl⟩

theorem trans (h : first.LooksLike second outputType key)
    (h' : second.LooksLike third outputType key) : first.LooksLike third outputType key where
  selection := h.selection.trans h'.selection
  staticValues := h.staticValues.trans h'.staticValues
  labels := h.labels.trans h'.labels
  template name := (h.template name).trans (h'.template name)

end LooksLike

/-- Two sections with one template, or none twice. -/
theorem section?_cases
    (h : first.template? outputType name = second.template? outputType name) :
    (first.section? outputType name = none ∧ second.section? outputType name = none) ∨
      ∃ found other, first.section? outputType name = some found ∧
        second.section? outputType name = some other ∧ found.template = other.template := by
  rw [template?, template?] at h
  cases hfirst : first.section? outputType name with
  | none =>
      rw [hfirst] at h
      exact .inl ⟨rfl, Option.map_eq_none_iff.1 h.symm⟩
  | some found =>
      rw [hfirst] at h
      obtain ⟨other, hsecond, htemplate⟩ := Option.map_eq_some_iff.1 h.symm
      exact .inr ⟨found, other, rfl, hsecond, htemplate.symm⟩

section SameTemplates

variable (h : ∀ name, first.template? outputType name = second.template? outputType name)

include h

/-- Inclusions ask the catalog what a listed section asks it, so the renderers are the same and not
only what they make of some template. -/
theorem renderer_eq (settings : Settings) :
    first.renderer settings outputType = second.renderer settings outputType := by
  have hinclusions : first.inclusions outputType = second.inclusions outputType := by
    funext name
    rw [inclusions, inclusions]
    obtain ⟨hfirst, hsecond⟩ | ⟨found, other, hfirst, hsecond, htemplate⟩ := section?_cases (h name)
    · rw [hfirst, hsecond]
    · simp only [hfirst, hsecond, htemplate]
  rw [renderer, renderer, hinclusions]

theorem renderSection_eq (settings : Settings) (name : String) (store : Store) :
    first.renderSection settings outputType name store =
      second.renderSection settings outputType name store := by
  rw [renderSection, renderSection, renderer_eq h]
  obtain ⟨hfirst, hsecond⟩ | ⟨found, other, hfirst, hsecond, htemplate⟩ := section?_cases (h name)
  · rw [hfirst, hsecond]
  · simp only [hfirst, hsecond, htemplate]

theorem renderSections_eq (settings : Settings) (key : String) (store : Store)
    (names : List String) :
    first.renderSections settings outputType key store names =
      second.renderSections settings outputType key store names := by
  induction names with
  | nil => rfl
  | cons name rest ih =>
      have hdefined : (first.section? outputType name).isSome =
          (second.section? outputType name).isSome := by
        obtain ⟨hfirst, hsecond⟩ | ⟨found, other, hfirst, hsecond, -⟩ := section?_cases (h name) <;>
          rw [hfirst, hsecond]
        rfl
      rw [renderSections, renderSections, hdefined, renderSection_eq h, ih]

end SameTemplates

theorem LooksLike.fillIn_eq (h : first.LooksLike second outputType key) (store : Store) :
    first.fillIn outputType key store = second.fillIn outputType key store := by
  rw [fillIn, fillIn, addLabels, addLabels, h.staticValues, h.labels]

theorem LooksLike.assemble_eq (h : first.LooksLike second outputType key) (settings : Settings)
    (store : Store) :
    first.assemble settings outputType key store =
      second.assemble settings outputType key store := by
  have hlisted : first.sectionsFor? key = second.sectionsFor? key :=
    congrArg (Option.map Selection.sections) h.selection
  rw [assemble, assemble, hlisted, h.fillIn_eq]
  simp only [renderSections_eq h.template]

/-- The section that an output type has itself. -/
def own? (catalog : Catalog) (outputType name : String) : Option Section :=
  (catalog.outputType? outputType).bind fun type => type.sections.get? name

def withShared (catalog : Catalog) (sections : Dict Section) : Catalog :=
  { catalog with master := { catalog.master with commonSections := sections } }

def withTypes (catalog : Catalog) (types : Dict OutputType) : Catalog :=
  { catalog with master := { catalog.master with outputTypes := types } }

/-- Gives an output type other sections and leaves all else of it as it is. -/
def withOwn (catalog : Catalog) (outputType : String) (type : OutputType)
    (sections : Dict Section) : Catalog :=
  catalog.withTypes (catalog.master.outputTypes.insert outputType { type with sections })

/-- Tables that differ in descriptions alone. -/
def SameTemplates (sections others : Dict Section) : Prop :=
  ∀ name, (sections.get? name).map Section.template = (others.get? name).map Section.template

/-- One change of a catalog that is none to the documents of an output type. -/
inductive Rearranged (outputType : String) : Catalog → Catalog → Prop where
  /-- What the common table had under this name was hidden before, and goes. -/
  | ownToShared {catalog : Catalog} {type : OutputType} {name : String} {found : Section}
      (htype : catalog.outputType? outputType = some type)
      (hown : type.sections.get? name = some found) :
      Rearranged outputType catalog
        ((catalog.withOwn outputType type (type.sections.erase name)).withShared
          (catalog.master.commonSections.insert name found))
  | sharedToOwn {catalog : Catalog} {type : OutputType} {name : String} {found : Section}
      (htype : catalog.outputType? outputType = some type)
      (hown : type.sections.get? name = none)
      (hshared : catalog.master.commonSections.get? name = some found) :
      Rearranged outputType catalog
        ((catalog.withOwn outputType type (type.sections.insert name found)).withShared
          (catalog.master.commonSections.erase name))
  | ownDescriptions {catalog : Catalog} {type : OutputType} {sections : Dict Section}
      (htype : catalog.outputType? outputType = some type)
      (hsections : SameTemplates type.sections sections) :
      Rearranged outputType catalog (catalog.withOwn outputType type sections)
  | sharedDescriptions {catalog : Catalog} {sections : Dict Section}
      (hsections : SameTemplates catalog.master.commonSections sections) :
      Rearranged outputType catalog (catalog.withShared sections)
  /-- Only common sections change that the output type hides by its own. -/
  | hidden {catalog : Catalog} {sections : Dict Section}
      (hsections : ∀ name, catalog.own? outputType name = none →
        sections.get? name = catalog.master.commonSections.get? name) :
      Rearranged outputType catalog (catalog.withShared sections)
  | emptyType {catalog : Catalog} (htype : catalog.outputType? outputType = none) :
      Rearranged outputType catalog (catalog.withOwn outputType {} {})
  | otherTypes {catalog : Catalog} {types : Dict OutputType}
      (htypes : types.get? outputType = catalog.outputType? outputType) :
      Rearranged outputType catalog (catalog.withTypes types)

theorem section?_eq_or (catalog : Catalog) (outputType name : String) :
    catalog.section? outputType name =
      (catalog.own? outputType name).or (catalog.master.commonSections.get? name) := by
  rw [section?, own?]
  cases (catalog.outputType? outputType).bind fun type => type.sections.get? name <;> rfl

theorem template?_eq_or (catalog : Catalog) (outputType name : String) :
    catalog.template? outputType name =
      ((catalog.own? outputType name).map Section.template).or
        ((catalog.master.commonSections.get? name).map Section.template) := by
  rw [template?, section?_eq_or, Option.map_or]

theorem own?_of_outputType? (htype : catalog.outputType? outputType = some type) (name : String) :
    catalog.own? outputType name = type.sections.get? name := by
  rw [own?, htype]
  rfl

theorem outputType?_withOwn (catalog : Catalog) (outputType : String) (type : OutputType)
    (sections : Dict Section) :
    (catalog.withOwn outputType type sections).outputType? outputType =
      some { type with sections } := by
  show (catalog.master.outputTypes.insert outputType { type with sections }).get? outputType = _
  rw [Dict.get?_insert, if_pos rfl]

theorem own?_withOwn (catalog : Catalog) (outputType : String) (type : OutputType)
    (sections : Dict Section) (name : String) :
    (catalog.withOwn outputType type sections).own? outputType name = sections.get? name :=
  own?_of_outputType? (catalog.outputType?_withOwn outputType type sections) name

theorem section?_withShared (catalog : Catalog) (sections : Dict Section)
    (outputType name : String) :
    (catalog.withShared sections).section? outputType name =
      (catalog.own? outputType name).or (sections.get? name) := by
  rw [section?_eq_or]
  rfl

/-- An output type is otherwise asked for its values only. -/
theorem looksLike_of_template?_eq (hmap : first.selectionMap = second.selectionMap)
    (hbindings : ((first.outputType? outputType).map OutputType.bindings).getD [] =
      ((second.outputType? outputType).map OutputType.bindings).getD [])
    (htemplate : ∀ name, first.template? outputType name = second.template? outputType name)
    (key : String) : first.LooksLike second outputType key where
  selection := by rw [selection?, selection?, hmap]
  staticValues := by
    rw [Catalog.staticValues, Catalog.staticValues, hbindings, selection?, selection?, hmap]
  labels := by rw [hmap]
  template := htemplate

theorem looksLike_withShared (catalog : Catalog) (outputType : String) (sections : Dict Section)
    (h : ∀ name, catalog.template? outputType name =
      ((catalog.own? outputType name).or (sections.get? name)).map Section.template)
    (key : String) : catalog.LooksLike (catalog.withShared sections) outputType key := by
  refine looksLike_of_template?_eq ?_ ?_ (fun name => ?_) key
  · rfl
  · rfl
  · rw [h name, template?, section?_withShared]

theorem looksLike_withOwn_withShared (htype : catalog.outputType? outputType = some type)
    (own shared : Dict Section)
    (h : ∀ name, catalog.template? outputType name =
      ((own.get? name).or (shared.get? name)).map Section.template) (key : String) :
    catalog.LooksLike ((catalog.withOwn outputType type own).withShared shared) outputType key := by
  refine looksLike_of_template?_eq ?_ ?_ (fun name => ?_) key
  · rfl
  · show _ = (((catalog.withOwn outputType type own).outputType? outputType).map _).getD []
    rw [htype, outputType?_withOwn]
    rfl
  · rw [h name, template?, section?_withShared, own?_withOwn]

/-- Each change leaves the template that a name leads to, and most of them the very section. -/
theorem Rearranged.looksLike (h : Rearranged outputType first second) (key : String) :
    first.LooksLike second outputType key := by
  cases h with
  | @ownToShared type name found htype hown =>
      refine looksLike_withOwn_withShared htype _ _ (fun other => ?_) key
      rw [template?, section?_eq_or, own?_of_outputType? htype, Dict.get?_erase, Dict.get?_insert]
      by_cases hother : other = name
      · rw [if_pos hother, if_pos hother, hother, hown]
        rfl
      · rw [if_neg hother, if_neg hother]
  | @sharedToOwn type name found htype hown hshared =>
      refine looksLike_withOwn_withShared htype _ _ (fun other => ?_) key
      rw [template?, section?_eq_or, own?_of_outputType? htype, Dict.get?_erase, Dict.get?_insert]
      by_cases hother : other = name
      · rw [if_pos hother, if_pos hother, hother, hown, hshared]
        rfl
      · rw [if_neg hother, if_neg hother]
  | @ownDescriptions type sections htype hsections =>
      refine looksLike_withOwn_withShared htype sections first.master.commonSections
        (fun other => ?_) key
      rw [template?_eq_or, own?_of_outputType? htype, hsections other, Option.map_or]
  | @sharedDescriptions sections hsections =>
      refine looksLike_withShared first outputType sections (fun other => ?_) key
      rw [template?_eq_or, hsections other, Option.map_or]
  | @hidden sections hsections =>
      refine looksLike_withShared first outputType sections (fun other => ?_) key
      rw [template?, section?_eq_or]
      cases hown : first.own? outputType other with
      | none => rw [hsections other hown]
      | some found => rfl
  | emptyType htype =>
      refine looksLike_of_template?_eq ?_ ?_ (fun other => ?_) key
      · rfl
      · rw [htype, outputType?_withOwn]
        rfl
      · rw [template?_eq_or, template?_eq_or, own?_withOwn, own?, htype]
        rfl
  | @otherTypes types htypes =>
      have htype : (first.withTypes types).outputType? outputType = first.outputType? outputType :=
        htypes
      refine looksLike_of_template?_eq ?_ ?_ (fun other => ?_) key
      · rfl
      · rw [htype]
      · rw [template?, template?, section?, section?, htype]
        rfl

theorem looksLike_of_reflTransGen (h : Relation.ReflTransGen (Rearranged outputType) first second)
    (key : String) : first.LooksLike second outputType key := by
  induction h with
  | refl => exact .refl first outputType key
  | tail _ hlast ih => exact ih.trans (hlast.looksLike key)

end Catalog

namespace Engine

/-- Two engines, each among its own files, of which an output type and a selection get the same
documents and the same sections. -/
def AnswersLike (engine other : Engine) (files elsewhere : FileTree) (outputType key : String) :
    Prop :=
  ∀ store, (engine.assemble files outputType key store).1 =
      (other.assemble elsewhere outputType key store).1 ∧
    ∀ name, (engine.renderSection files outputType name store).1 =
      (other.renderSection elsewhere outputType name store).1

/-- **A document sees its catalog by looking sections up and not otherwise.** Neither can be told of
a catalog in which of its tables a section stands. -/
theorem answersLike_of_looksLike {engine other : Engine} {files elsewhere : FileTree}
    {first second : Catalog} (hfirst : engine.catalog files = .ok first)
    (hsecond : other.catalog elsewhere = .ok second) (hsettings : engine.settings = other.settings)
    (outputType : String) :
    (∀ key, first.LooksLike second outputType key →
        engine.AnswersLike other files elsewhere outputType key) ∧
      (Relation.ReflTransGen (Catalog.Rearranged outputType) first second →
        ∀ key, engine.AnswersLike other files elsewhere outputType key) := by
  have hlike : ∀ key, first.LooksLike second outputType key →
      engine.AnswersLike other files elsewhere outputType key := by
    intro key hlooks store
    constructor
    · rw [assemble, assemble, consult_of_ok hfirst, consult_of_ok hsecond, hsettings]
      exact hlooks.assemble_eq other.settings store
    · intro name
      rw [renderSection, renderSection, consult_of_ok hfirst, consult_of_ok hsecond, hsettings]
      exact Catalog.renderSection_eq hlooks.template other.settings name store
  exact ⟨hlike, fun h key => hlike key (Catalog.looksLike_of_reflTransGen h key)⟩

def body : Section where
  template := "x: \x7b\x7bx\x7d\x7d\x7b\x7b> tail\x7d\x7d"

def leaf : OutputType where
  sections := .ofSorted [("body", body), ("page", { template := "\x7b\x7b> body\x7d\x7d" })]

/-- The leaf has its own body, so that the common one is hidden from it. -/
def ownBody : Catalog where
  master :=
    { commonSections := .ofSorted [("body", { template := "hidden" }), ("tail", { template := "!" })]
      outputTypes := .ofSorted [("leaf", leaf)] }
  selectionMap := { selections := .ofSorted [("leaf", { sections := ["page", "ghost"] })] }

def sharedBody : Catalog :=
  (ownBody.withOwn "leaf" leaf (leaf.sections.erase "body")).withShared
    (ownBody.master.commonSections.insert "body" body)

/-- A common body of another description and no template of its own. -/
def describedBody : Catalog :=
  sharedBody.withShared
    (sharedBody.master.commonSections.insert "body" { body with description := some "The body." })

theorem rearranged_describedBody :
    Relation.ReflTransGen (Catalog.Rearranged "leaf") ownBody describedBody := by
  have hmoved : Catalog.Rearranged "leaf" ownBody sharedBody := by
    apply Catalog.Rearranged.ownToShared
    · rfl
    · rfl
  have hdescribed : Catalog.Rearranged "leaf" sharedBody describedBody := by
    apply Catalog.Rearranged.sharedDescriptions
    intro name
    rw [Dict.get?_insert]
    by_cases hname : name = "body"
    · rw [if_pos hname, hname]
      rfl
    · rw [if_neg hname]
  exact .tail (.single hmoved) hdescribed

theorem answersLike_describedBody :
    let engine : Engine := { loaded := some ownBody }
    let other : Engine := { loaded := some describedBody }
    let store := Store.ofList [("x", .text "1")]
    engine.catalog {} = .ok ownBody ∧ other.catalog {} = .ok describedBody ∧
      engine.settings = other.settings ∧
      Relation.ReflTransGen (Catalog.Rearranged "leaf") ownBody describedBody ∧
      describedBody.own? "leaf" "body" = none ∧
      (engine.assemble {} "leaf" "leaf" store).1.result = .ok "x: 1!" ∧
      (other.assemble {} "leaf" "leaf" store).1.result = .ok "x: 1!" := by
  intro engine other store
  have hfirst : engine.catalog {} = .ok ownBody := rfl
  have hsecond : other.catalog {} = .ok describedBody := rfl
  have hlike : engine.AnswersLike other {} {} "leaf" "leaf" :=
    (answersLike_of_looksLike hfirst hsecond rfl "leaf").2 rearranged_describedBody "leaf"
  have hshown : (engine.assemble {} "leaf" "leaf" store).1.result = .ok "x: 1!" := by decide +kernel
  refine ⟨hfirst, hsecond, rfl, rearranged_describedBody, rfl, hshown, ?_⟩
  rw [← (hlike store).1]
  exact hshown

end Engine

end PromptSheet
