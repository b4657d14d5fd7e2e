import PromptSheet.Library
import PromptSheet.Proofs.ReachedTemplates
import PromptSheet.Proofs.SectionBySection

/-!
# Which template is broken

Rendering reads more templates than the one that is asked for: each that is included, at any depth,
is read when it is reached. If one of them is no template, the fault is said of the outermost one,
with the cause and the line of the one that is broken. So the name in the message and its line
belong together only where the outermost template is itself the broken one.
-/

namespace PromptSheet

namespace Template

/-- The text is broken, or one that its inclusions lead to within the limit. -/
inductive Fails (source : String → Found) (limit : Nat) (text : String) (cause : ParseError) :
    Prop where
  | own (hparse : parse text = .error cause)
  | included {nodes : List Node} {names : List String} {final : String}
      (hparse : parse text = .ok nodes) (hnames : Leads source nodes names final)
      (hlength : names.length ≤ limit) (hfinal : parse final = .error cause)

namespace Renderer

variable {source : String → Found} {nodes : List Node} {store : Store} {cause : ParseError}

theorem fails_of_renderText {renderer : Renderer} (hsource : renderer.source = some source)
    {text : String} (h : (renderer.renderText text store).result = .error cause) :
    Fails source renderer.limit text cause := by
  rw [renderText] at h
  cases hparse : parse text with
  | error e =>
      rw [hparse] at h
      cases h
      exact .own hparse
  | ok nodes =>
      simp only [hparse, render, hsource] at h
      obtain ⟨names, final, hleads, hlength, hfinal⟩ := leads_of_renderWithin h
      exact .included hparse hleads hlength hfinal

end Renderer

end Template

variable {files : FileTree} {store : Store} {outputType key asked name text : String}
  {cause : Template.ParseError}

theorem fails_of_renderTemplate {renderer : Template.Renderer} {source : String → Template.Found}
    (hsource : renderer.source = some source)
    (h : (renderTemplate renderer asked text store).result = .error (.parse name cause)) :
    name = asked ∧ Template.Fails source renderer.limit text cause := by
  obtain ⟨cause', hfault, hcause⟩ := eq_error_of_mapError h
  cases hcause
  exact ⟨rfl, Template.Renderer.fails_of_renderText hsource hfault⟩

namespace Catalog

variable {catalog : Catalog} {settings : Settings}

theorem not_isFault_of_read {master selection : String} {e : Error}
    (h : read master selection = .error e) : ¬e.IsFault := by
  rintro ⟨name, cause, rfl⟩
  unfold read at h
  split at h
  · cases h
  · split at h <;> cases h

theorem not_isFault_of_readFile {path : String} {e : Error} (h : readFile files path = .error e) :
    ¬e.IsFault := by
  rintro ⟨name, cause, rfl⟩
  unfold readFile at h
  split at h
  · split at h <;> cases h
  · cases h

/-- Loading a catalog does not look into its templates. -/
theorem not_isFault_of_load {source : Source} {e : Error} (h : load files source = .error e) :
    ¬e.IsFault := by
  cases source with
  | bundled => cases h
  | texts master selection => exact not_isFault_of_read h
  | files master selection =>
      obtain h | ⟨master, -, h⟩ := eq_error_of_bind h
      · exact not_isFault_of_readFile h
      · obtain h | ⟨selection, -, h⟩ := eq_error_of_bind h
        · exact not_isFault_of_readFile h
        · exact not_isFault_of_read h

/-- The section is defined, and it fails by its own template or by one that it includes. -/
def SectionFails (catalog : Catalog) (limit : Nat) (outputType name : String)
    (cause : Template.ParseError) : Prop :=
  ∃ found, catalog.section? outputType name = some found ∧
    Template.Fails (catalog.inclusions outputType) limit found.template cause

theorem sectionFails_of_renderSection
    (h : (catalog.renderSection settings outputType asked store).result =
      .error (.parse name cause)) :
    name = asked ∧ catalog.SectionFails settings.limit outputType name cause := by
  rw [renderSection] at h
  cases hfound : catalog.section? outputType asked with
  | none =>
      rw [hfound] at h
      cases h
  | some found =>
      rw [hfound] at h
      obtain ⟨rfl, hfails⟩ := fails_of_renderTemplate rfl h
      exact ⟨rfl, found, hfound, hfails⟩

theorem sectionFails_of_assemble
    (h : (catalog.assemble settings outputType key store).result = .error (.parse name cause)) :
    (∃ names, catalog.sectionsFor? key = some names ∧ name ∈ names) ∧
      catalog.SectionFails settings.limit outputType name cause := by
  obtain ⟨hother, -⟩ | ⟨names, hlisted, asked, hasked, -, hfault⟩ := exists_error_of_assemble h
  · cases hother
  · obtain ⟨rfl, hfails⟩ := sectionFails_of_renderSection hfault
    exact ⟨⟨names, hlisted, hasked⟩, hfails⟩

end Catalog

theorem Engine.exists_catalog_of_fault {α : Type} {engine : Engine}
    {work : Catalog → Logged Error α}
    (h : (engine.consult files work).1.result = .error (.parse name cause)) :
    ∃ catalog, engine.catalog files = .ok catalog ∧
      (work catalog).result = .error (.parse name cause) := by
  cases hcatalog : engine.catalog files with
  | ok catalog =>
      rw [consult_of_ok hcatalog] at h
      exact ⟨catalog, rfl, h⟩
  | error e =>
      rw [consult_of_error hcatalog] at h
      cases h
      rw [Engine.catalog] at hcatalog
      cases hloaded : engine.loaded with
      | some catalog =>
          rw [hloaded] at hcatalog
          cases hcatalog
      | none =>
          rw [hloaded] at hcatalog
          exact absurd ⟨name, cause, rfl⟩ (Catalog.not_isFault_of_load hcatalog)

namespace Library

variable {library : Library}

theorem not_isFault_of_get {e : Error} (h : library.get files name = .error e) : ¬e.IsFault := by
  rintro ⟨asked, cause, rfl⟩
  unfold get at h
  split at h
  · cases h
  · split at h
    · cases h
    · split at h <;> cases h

/-- The template is there, and it fails by its own text or by that of one that it includes. -/
def TemplateFails (library : Library) (files : FileTree) (name : String)
    (cause : Template.ParseError) : Prop :=
  ∃ text, library.get files name = .ok text ∧
    Template.Fails (library.inclusions files) library.limit text cause

theorem templateFails_of_render
    (h : (library.render files asked store).result = .error (.parse name cause)) :
    name = asked ∧ library.TemplateFails files name cause := by
  rw [render, Logged.result_andThen] at h
  obtain h | ⟨text, htext, h⟩ := eq_error_of_bind h
  · exact absurd ⟨name, cause, rfl⟩ (not_isFault_of_get h)
  · obtain ⟨rfl, hfails⟩ := fails_of_renderTemplate rfl (eq_error_of_map h)
    exact ⟨rfl, text, htext, hfails⟩

end Library

/-- **A fault is said of what was asked for**, a listed section or the template that was named. It is
broken itself, or one is that its inclusions lead to. -/
theorem fails_of_parse (engine : Engine) (library : Library) (files : FileTree) (store : Store)
    (outputType asked name : String) (cause : Template.ParseError) :
    ((engine.assemble files outputType asked store).1.result = .error (.parse name cause) →
      ∃ catalog, engine.catalog files = .ok catalog ∧
        (∃ names, catalog.sectionsFor? asked = some names ∧ name ∈ names) ∧
        catalog.SectionFails engine.settings.limit outputType name cause) ∧
    ((engine.renderSection files outputType asked store).1.result = .error (.parse name cause) →
      ∃ catalog, engine.catalog files = .ok catalog ∧ name = asked ∧
        catalog.SectionFails engine.settings.limit outputType name cause) ∧
    ((library.render files asked store).result = .error (.parse name cause) →
      name = asked ∧ library.TemplateFails files name cause) := by
  refine ⟨fun h => ?_, fun h => ?_, Library.templateFails_of_render⟩
  · obtain ⟨catalog, hcatalog, hfault⟩ := Engine.exists_catalog_of_fault h
    exact ⟨catalog, hcatalog, Catalog.sectionFails_of_assemble hfault⟩
  · obtain ⟨catalog, hcatalog, hfault⟩ := Engine.exists_catalog_of_fault h
    exact ⟨catalog, hcatalog, Catalog.sectionFails_of_renderSection hfault⟩

def outerText : String := "\x7b\x7b> inner\x7d\x7d"

def innerText : String := "first line\n\x7b\x7b#if x\x7d\x7d"

def nestedCatalog : Catalog where
  master :=
    { commonSections := .ofSorted
        [("inner", { template := innerText }), ("outer", { template := outerText })] }
  selectionMap := { selections := .ofSorted [("card", { sections := ["outer"] })] }

def nestedEngine : Engine :=
  ({} : Engine).withCatalog nestedCatalog

def nestedLibrary : Library where
  texts := .ofSorted [("inner", innerText), ("outer", outerText)]

theorem fails_of_parse_nested :
    let fault := Error.parse "outer" (.unclosedBlock .when 2)
    (nestedEngine.assemble {} "card" "card" {}).1.result = .error fault ∧
      (nestedEngine.renderSection {} "card" "outer" {}).1.result = .error fault ∧
      (nestedLibrary.render {} "outer" {}).result = .error fault ∧
      (∃ names, nestedCatalog.sectionsFor? "card" = some names ∧ "outer" ∈ names) ∧
      nestedCatalog.SectionFails 10 "card" "outer" (.unclosedBlock .when 2) ∧
      nestedLibrary.TemplateFails {} "outer" (.unclosedBlock .when 2) := by
  intro fault
  have hdocument : (nestedEngine.assemble {} "card" "card" {}).1.result = .error fault := by
    decide +kernel
  have hsection : (nestedEngine.renderSection {} "card" "outer" {}).1.result = .error fault := by
    decide +kernel
  have htemplate : (nestedLibrary.render {} "outer" {}).result = .error fault := by decide +kernel
  obtain ⟨hlisted, -, -⟩ := fails_of_parse nestedEngine nestedLibrary {} {} "card" "card" "outer"
    (.unclosedBlock .when 2)
  obtain ⟨-, hasked, hnamed⟩ := fails_of_parse nestedEngine nestedLibrary {} {} "card" "outer"
    "outer" (.unclosedBlock .when 2)
  obtain ⟨catalog, hcatalog, hnames, -⟩ := hlisted hdocument
  obtain ⟨catalog', hcatalog', -, hfails⟩ := hasked hsection
  cases hcatalog
  cases hcatalog'
  exact ⟨hdocument, hsection, htemplate, hnames, hfails, (hnamed htemplate).2⟩

/-- The template that is named is a template, of one line; the cause is in the second line of the one
that it includes. -/
theorem not_all_named_templates_broken :
    let cause := Template.ParseError.unclosedBlock .when 2
    ((nestedEngine.assemble {} "card" "card" {}).1.result = .error (.parse "outer" cause) ∧
      (nestedEngine.renderSection {} "card" "outer" {}).1.result = .error (.parse "outer" cause) ∧
      (nestedLibrary.render {} "outer" {}).result = .error (.parse "outer" cause)) ∧
    (nestedCatalog.section? "card" "outer").map Section.template = some outerText ∧
      nestedLibrary.get {} "outer" = .ok outerText ∧
      Template.parse outerText = .ok [.inclusion "inner" []] ∧
    (nestedCatalog.section? "card" "inner").map Section.template = some innerText ∧
      nestedLibrary.get {} "inner" = .ok innerText ∧
      Template.parse innerText = .error cause :=
  ⟨⟨by decide +kernel, by decide +kernel, by decide +kernel⟩, rfl, rfl, by decide +kernel, rfl, rfl,
    by decide +kernel⟩

end PromptSheet
