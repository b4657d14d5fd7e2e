import Mathlib.Data.List.Forall2
import PromptSheet.Engine
import PromptSheet.Proofs.Results

/-!
# Documents section by section

An engine renders a section on its own when it is asked to. A document is what comes of its listed
sections when they are rendered like this, one after the other, against the store that the catalog
has filled in: the first fault in a template is that of the document, and without a fault the
document joins the texts of the sections that are defined.
-/

namespace PromptSheet

/-- A template that is none. A section that is not defined is no fault. -/
def Error.IsFault (e : Error) : Prop :=
  ∃ name cause, e = .parse name cause

namespace Catalog

variable {catalog : Catalog} {settings : Settings} {outputType key name : String} {store : Store}
  {names : List String} {e : Error}

/-- Whether the output type itself or the common table has a section of this name. -/
def isDefined (catalog : Catalog) (outputType name : String) : Bool :=
  ((catalog.outputType? outputType).any fun type => type.sections.contains name) ||
    catalog.master.commonSections.contains name

theorem isDefined_eq (catalog : Catalog) (outputType name : String) :
    catalog.isDefined outputType name = (catalog.section? outputType name).isSome := by
  rw [isDefined, section?]
  cases catalog.outputType? outputType with
  | none => rfl
  | some type =>
      cases hown : type.sections.get? name <;>
        simp [Dict.contains, hown]

theorem renderSection_of_not_isDefined (h : ¬catalog.isDefined outputType name = true) :
    catalog.renderSection settings outputType name store = .fail (.unknownSection name) := by
  have hnone : catalog.section? outputType name = none := by
    simpa [isDefined_eq] using h
  rw [renderSection, hnone]

/-- What is wrong with a section that is defined is said of the section. -/
theorem exists_cause_of_isDefined (hname : catalog.isDefined outputType name = true)
    (h : (catalog.renderSection settings outputType name store).result = .error e) :
    ∃ cause, e = .parse name cause := by
  rw [isDefined_eq] at hname
  obtain ⟨found, hfound⟩ := Option.isSome_iff_exists.1 hname
  rw [renderSection, hfound] at h
  obtain ⟨cause, -, hcause⟩ := eq_error_of_mapError h
  exact ⟨cause, hcause.symm⟩

theorem isFault_iff_isDefined
    (h : (catalog.renderSection settings outputType name store).result = .error e) :
    e.IsFault ↔ catalog.isDefined outputType name = true := by
  constructor
  · rintro ⟨own, cause, rfl⟩
    by_contra hname
    rw [renderSection_of_not_isDefined hname] at h
    cases h
  · intro hname
    obtain ⟨cause, rfl⟩ := exists_cause_of_isDefined hname h
    exact ⟨name, cause, rfl⟩

/-- All that can come of a listed section: it is passed over, or it fails and ends the document, or
its text comes before those of the rest. -/
theorem renderSections_cons_cases (catalog : Catalog) (settings : Settings)
    (outputType key : String) (store : Store) (name : String) (rest : List String) :
    let own := catalog.renderSection settings outputType name store
    let others := catalog.renderSections settings outputType key store rest
    let all := catalog.renderSections settings outputType key store (name :: rest)
    (catalog.isDefined outputType name = false ∧
        all.warnings = missingWarnings settings outputType key name ++ others.warnings ∧
        all.result = others.result) ∨
      (∃ e, catalog.isDefined outputType name = true ∧ own.result = .error e ∧
        all.warnings = own.warnings ∧ all.result = .error e) ∨
      ∃ text, catalog.isDefined outputType name = true ∧ own.result = .ok text ∧
        all.warnings = own.warnings ++ others.warnings ∧
        all.result = others.result.map (text :: ·) := by
  intro own others all
  have hall : all = if catalog.isDefined outputType name then
      own.andThen fun text => others.map (text :: ·)
      else { others with
        warnings := missingWarnings settings outputType key name ++ others.warnings } := by
    rw [isDefined_eq]
    exact renderSections.eq_2 ..
  by_cases hname : catalog.isDefined outputType name = true
  · rw [if_pos hname] at hall
    rw [hall, Logged.andThen]
    cases hown : own.result with
    | error e => exact .inr (.inl ⟨e, hname, rfl, rfl, rfl⟩)
    | ok text => exact .inr (.inr ⟨text, hname, rfl, rfl, rfl⟩)
  · rw [if_neg hname] at hall
    rw [hall]
    exact .inl ⟨Bool.eq_false_iff.2 hname, rfl, rfl⟩

theorem result_renderSections_of_first {before after : List String}
    (hbefore : ∀ other ∈ before, catalog.isDefined outputType other = true →
      ∀ e, (catalog.renderSection settings outputType other store).result ≠ .error e)
    (hname : catalog.isDefined outputType name = true)
    (h : (catalog.renderSection settings outputType name store).result = .error e) :
    (catalog.renderSections settings outputType key store (before ++ name :: after)).result =
      .error e := by
  induction before with
  | nil =>
      obtain ⟨hundefined, -⟩ | ⟨e', -, hown, -, hall⟩ | ⟨text, -, hown, -⟩ :=
        renderSections_cons_cases catalog settings outputType key store name after
      · rw [hname] at hundefined
        cases hundefined
      · cases h.symm.trans hown
        exact hall
      · cases h.symm.trans hown
  | cons other before ih =>
      obtain ⟨hother, hbefore⟩ := List.forall_mem_cons.1 hbefore
      have hrest := ih hbefore
      obtain ⟨-, -, hall⟩ | ⟨e', hdefined, hown, -⟩ | ⟨text, -, -, -, hall⟩ :=
        renderSections_cons_cases catalog settings outputType key store other
          (before ++ name :: after)
      · exact hall.trans hrest
      · exact absurd hown (hother hdefined e')
      · rw [List.cons_append, hall, hrest]
        rfl

theorem exists_result_renderSections
    (h : ∀ name ∈ names, catalog.isDefined outputType name = true →
      ∀ e, (catalog.renderSection settings outputType name store).result ≠ .error e) :
    ∃ texts, (catalog.renderSections settings outputType key store names).result = .ok texts ∧
      List.Forall₂
        (fun name text => (catalog.renderSection settings outputType name store).result = .ok text)
        (names.filter (catalog.isDefined outputType)) texts := by
  induction names with
  | nil => exact ⟨[], rfl, .nil⟩
  | cons name rest ih =>
      obtain ⟨hname, hrest⟩ := List.forall_mem_cons.1 h
      obtain ⟨texts, hresult, htexts⟩ := ih hrest
      obtain ⟨hundefined, -, hall⟩ | ⟨e, hdefined, hown, -⟩ | ⟨text, hdefined, hown, -, hall⟩ :=
        renderSections_cons_cases catalog settings outputType key store name rest
      · refine ⟨texts, hall.trans hresult, ?_⟩
        rw [List.filter_cons_of_neg (by simp [hundefined])]
        exact htexts
      · exact absurd hown (hname hdefined e)
      · refine ⟨text :: texts, ?_, ?_⟩
        · rw [hall, hresult]
          rfl
        · rw [List.filter_cons_of_pos hdefined]
          exact .cons hown htexts

/-- Only a section can fail. -/
theorem exists_error_of_renderSections
    (h : (catalog.renderSections settings outputType key store names).result = .error e) :
    ∃ name ∈ names, catalog.isDefined outputType name = true ∧
      (catalog.renderSection settings outputType name store).result = .error e := by
  induction names with
  | nil => cases h
  | cons name rest ih =>
      have hlater : (catalog.renderSections settings outputType key store rest).result = .error e →
          ∃ other ∈ name :: rest, catalog.isDefined outputType other = true ∧
            (catalog.renderSection settings outputType other store).result = .error e := by
        intro hrest
        obtain ⟨other, hother, hfault⟩ := ih hrest
        exact ⟨other, List.mem_cons_of_mem _ hother, hfault⟩
      obtain ⟨-, -, hall⟩ | ⟨e', hdefined, hown, -, hall⟩ | ⟨text, -, -, -, hall⟩ :=
        renderSections_cons_cases catalog settings outputType key store name rest
      · exact hlater (hall.symm.trans h)
      · cases hall.symm.trans h
        exact ⟨name, List.mem_cons_self, hdefined, hown⟩
      · exact hlater (eq_error_of_map (hall.symm.trans h))

theorem assemble_of_nothing_listed
    (h : catalog.sectionsFor? key = none ∨ catalog.sectionsFor? key = some []) :
    catalog.assemble settings outputType key store = .fail (.unknownOutputType key) := by
  rcases h with h | h <;> rw [assemble, h]

theorem assemble_of_listed (hlisted : catalog.sectionsFor? key = some names) (hne : names ≠ []) :
    catalog.assemble settings outputType key store =
      (catalog.renderSections settings outputType key (catalog.fillIn outputType key store)
        names).map (joinSections settings) := by
  cases names with
  | nil => exact absurd rfl hne
  | cons name rest => rw [assemble, hlisted]

/-- Either nothing is listed, or one of the listed sections fails. -/
theorem exists_error_of_assemble
    (h : (catalog.assemble settings outputType key store).result = .error e) :
    (e = .unknownOutputType key ∧
        (catalog.sectionsFor? key = none ∨ catalog.sectionsFor? key = some [])) ∨
      ∃ names, catalog.sectionsFor? key = some names ∧
        ∃ name ∈ names, catalog.isDefined outputType name = true ∧
          (catalog.renderSection settings outputType name
            (catalog.fillIn outputType key store)).result = .error e := by
  by_cases hnothing : catalog.sectionsFor? key = none ∨ catalog.sectionsFor? key = some []
  · rw [assemble_of_nothing_listed hnothing] at h
    cases h
    exact .inl ⟨rfl, hnothing⟩
  · obtain ⟨hnone, hempty⟩ := not_or.1 hnothing
    obtain ⟨names, hlisted⟩ := Option.ne_none_iff_exists'.1 hnone
    have hne : names ≠ [] := fun hnil => hempty (hnil ▸ hlisted)
    rw [assemble_of_listed hlisted hne] at h
    exact .inr ⟨names, hlisted, exists_error_of_renderSections (eq_error_of_map h)⟩

/-- What comes of a document, by what comes of each section on its own. -/
structure IsSectionwise (catalog : Catalog) (prunes : Bool) (outputType key : String)
    (own : String → Except Error String) (document : Except Error String) : Prop where
  nothing_listed : catalog.sectionsFor? key = none ∨ catalog.sectionsFor? key = some [] →
    document = .error (.unknownOutputType key)
  /-- The first fault in the order of the list is that of the document. -/
  first_fault : ∀ before name after e,
    catalog.sectionsFor? key = some (before ++ name :: after) →
    (∀ other ∈ before, ∀ e, own other = .error e → ¬e.IsFault) →
    own name = .error e → e.IsFault → document = .error e
  /-- Without a fault every section that is defined shows its text, as often as it is listed. -/
  no_fault : ∀ names, catalog.sectionsFor? key = some names → names ≠ [] →
    (∀ name ∈ names, ∀ e, own name = .error e → ¬e.IsFault) →
    ∃ texts, List.Forall₂ (fun name text => own name = .ok text)
        (names.filter (catalog.isDefined outputType)) texts ∧
      document = .ok (if prunes then prune ("\n".intercalate texts) else "\n".intercalate texts)

theorem isSectionwise_assemble (catalog : Catalog) (settings : Settings) (outputType key : String)
    (store : Store) :
    catalog.IsSectionwise settings.prunes outputType key
      (fun name => (catalog.renderSection settings outputType name
        (catalog.fillIn outputType key store)).result)
      (catalog.assemble settings outputType key store).result := by
  have hdefined : ∀ names : List String,
      (∀ name ∈ names, ∀ e, (catalog.renderSection settings outputType name
        (catalog.fillIn outputType key store)).result = .error e → ¬e.IsFault) →
      ∀ name ∈ names, catalog.isDefined outputType name = true →
        ∀ e, (catalog.renderSection settings outputType name
          (catalog.fillIn outputType key store)).result ≠ .error e := by
    intro names hnames name hname hdefined e he
    exact hnames name hname e he ((isFault_iff_isDefined he).2 hdefined)
  constructor
  · intro hnothing
    rw [assemble_of_nothing_listed hnothing]
    rfl
  · intro before name after e hlisted hbefore he hfault
    have hname : catalog.isDefined outputType name = true := (isFault_iff_isDefined he).1 hfault
    have hfirst : (catalog.renderSections settings outputType key
        (catalog.fillIn outputType key store) (before ++ name :: after)).result = .error e :=
      result_renderSections_of_first (hdefined before hbefore) hname he
    rw [assemble_of_listed hlisted (by simp), Logged.map, hfirst]
    rfl
  · intro names hlisted hne hnames
    obtain ⟨texts, hresult, htexts⟩ := exists_result_renderSections (hdefined names hnames)
    refine ⟨texts, htexts, ?_⟩
    rw [assemble_of_listed hlisted hne, Logged.map, hresult]
    rfl

end Catalog

namespace Engine

/-- **A document is its sections, rendered one by one.** A document of a registry's values is the one
that these values make, if the catalog can be loaded and the registry knows the output type. -/
theorem assemble_sectionwise {σ : Type} (engine : Engine) (files : FileTree)
    (outputType key : String) (store : Store) (registry : Registry σ) (state : σ) :
    (∀ catalog, engine.catalog files = .ok catalog →
      catalog.IsSectionwise engine.settings.prunes outputType key
        (fun name => (engine.renderSection files outputType name
          (catalog.fillIn outputType key store)).1.result)
        (engine.assemble files outputType key store).1.result) ∧
    (∀ e, engine.catalog files = .error e →
      (engine.generateWith files registry outputType key state).1.result = .error e) ∧
    ∀ catalog, engine.catalog files = .ok catalog →
      (registry.resolve? outputType state = none →
        (engine.generateWith files registry outputType key state).1.result =
          .error (.unknownOutputType outputType)) ∧
      ∀ resolved, registry.resolve? outputType state = some resolved →
        engine.generateWith files registry outputType key state =
          engine.assemble files outputType key resolved := by
  refine ⟨fun catalog hcatalog => ?_, fun e hcatalog => ?_, fun catalog hcatalog => ⟨?_, ?_⟩⟩
  · simp only [assemble, renderSection, consult_of_ok hcatalog]
    exact catalog.isSectionwise_assemble engine.settings outputType key store
  · rw [generateWith, consult_of_error hcatalog]
    rfl
  · intro hunknown
    rw [generateWith, consult_of_ok hcatalog, hunknown]
    rfl
  · intro resolved hresolved
    rw [generateWith, assemble, consult_of_ok hcatalog, consult_of_ok hcatalog, hresolved]

def cardType : OutputType where
  sections := .ofSorted
    [("broken", { template := "\x7b\x7b#if x\x7d\x7d" }),
     ("wrapped", { template := "\x7b\x7b> tail\x7d\x7d" })]

def cardCatalog : Catalog where
  master :=
    { commonSections := .ofSorted [("tail", { template := "x: \x7b\x7bx\x7d\x7d" })]
      outputTypes := .ofSorted [("card", cardType)] }
  selectionMap :=
    { selections := .ofSorted
        [("card", { sections := ["tail", "ghost", "wrapped", "tail"] }),
         ("faulty", { outputType := some "card", sections := ["tail", "broken", "ghost"] })] }

def cardEngine : Engine :=
  withCatalog {} cardCatalog

def cardRegistry : Registry Unit :=
  ({} : Registry Unit).register "card" fun _ => {}

theorem assemble_sectionwise_card :
    let filled := cardCatalog.fillIn "card" "faulty" {}
    let fault := Error.parse "broken" (.unclosedBlock .when 1)
    cardEngine.catalog {} = .ok cardCatalog ∧
      (cardEngine.renderSection {} "card" "tail" filled).1.result = .ok "x: " ∧
      (cardEngine.renderSection {} "card" "broken" filled).1.result = .error fault ∧
      (cardEngine.assemble {} "card" "faulty" {}).1.result = .error fault ∧
      cardRegistry.resolve? "card" () = some {} ∧
      cardEngine.generateWith {} cardRegistry "card" "faulty" () =
        cardEngine.assemble {} "card" "faulty" {} := by
  have hcatalog : cardEngine.catalog {} = .ok cardCatalog := rfl
  have htail : (cardEngine.renderSection {} "card" "tail"
      (cardCatalog.fillIn "card" "faulty" {})).1.result = .ok "x: " := by decide +kernel
  have hbroken : (cardEngine.renderSection {} "card" "broken"
      (cardCatalog.fillIn "card" "faulty" {})).1.result =
        .error (.parse "broken" (.unclosedBlock .when 1)) := by decide +kernel
  obtain ⟨hsections, -, hregistry⟩ :=
    assemble_sectionwise cardEngine {} "card" "faulty" {} cardRegistry ()
  refine ⟨hcatalog, htail, hbroken, ?_, rfl, (hregistry _ hcatalog).2 _ rfl⟩
  refine (hsections _ hcatalog).first_fault ["tail"] "broken" ["ghost"] _ rfl ?_ hbroken
    ⟨_, _, rfl⟩
  intro other hother e he
  obtain rfl := List.mem_singleton.1 hother
  cases htail.symm.trans he

end Engine

end PromptSheet
