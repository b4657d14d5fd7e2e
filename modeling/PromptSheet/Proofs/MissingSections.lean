import PromptSheet.Proofs.DictLaws
import PromptSheet.Proofs.RenderingLaws
import PromptSheet.Proofs.SectionBySection

/-!
# What is reported of a catalog and what is logged of its documents

A catalog is looked through without making a document of it: its issues name the sections that are
listed and not defined. Assembling a document meets the same sections, one by one, and logs them. Both
have the same list before them, and what is rendered in between logs nothing about sections, so a
whole document logs just what was reported and one that is broken off logs the first part of it.
-/

namespace PromptSheet

/-- It says that a listed section is not defined, and not something about an inclusion. -/
def Warning.isOfSection : Warning → Bool
  | .sectionNotFound _ _ _ => true
  | _ => false

/-- The section that an issue reports as missing for a selection key. -/
def Issue.section? (key : String) : Issue → Option String
  | .missingSection own name => if own = key then some name else none
  | _ => none

namespace Template.Renderer

theorem not_isOfSection_renderWithin (limit : Nat) (source : String → Found) (remaining : Nat) :
    ∀ nodes store, ∀ warning ∈ (renderWithin limit source remaining nodes store).warnings,
      warning.isOfSection = false := by
  induction remaining with
  | zero =>
      intro nodes store
      rw [renderWithin]
      refine Node.forall_warnings_renderAll nodes ?_ store
      intro name parameters store
      exact List.forall_mem_singleton.2 rfl
  | succ remaining ih =>
      intro nodes store
      rw [renderWithin]
      refine Node.forall_warnings_renderAll nodes ?_ store
      intro name parameters store
      obtain ⟨-, hshown⟩ | ⟨-, hshown⟩ | ⟨text, e, -, -, hshown⟩ | ⟨text, inner, -, -, hshown⟩ :=
        included_cases limit source remaining name parameters store
      · rw [hshown]
        exact List.forall_mem_singleton.2 rfl
      · rw [hshown]
        exact List.forall_mem_cons.2 ⟨rfl, List.forall_mem_singleton.2 rfl⟩
      · rw [hshown]
        exact List.forall_mem_nil _
      · rw [hshown]
        exact ih inner _

theorem not_isOfSection_renderText (renderer : Renderer) (text : String) (store : Store) :
    ∀ warning ∈ (renderer.renderText text store).warnings, warning.isOfSection = false := by
  rw [renderText]
  cases parse text with
  | error e => exact List.forall_mem_nil _
  | ok nodes =>
      show ∀ warning ∈ (renderer.render nodes store).warnings, _
      rw [render]
      cases renderer.source with
      | none => exact Node.forall_warnings_renderAll nodes (fun _ _ _ => List.forall_mem_nil _) store
      | some source => exact not_isOfSection_renderWithin _ source _ nodes store

end Template.Renderer

namespace Catalog

variable {catalog : Catalog} {settings : Settings} {outputType key name : String} {store : Store}
  {names optional : List String} {selection : Selection}

theorem filter_warnings_renderSection :
    (catalog.renderSection settings outputType name store).warnings.filter Warning.isOfSection =
      [] := by
  refine List.filter_eq_nil_iff.2 fun warning hwarning => ?_
  rw [renderSection] at hwarning
  cases hfound : catalog.section? outputType name with
  | none =>
      rw [hfound] at hwarning
      cases hwarning
  | some found =>
      rw [hfound] at hwarning
      simp [Template.Renderer.not_isOfSection_renderText _ _ _ warning hwarning]

/-- A listed section that has to be there and is not. -/
def isMissing (catalog : Catalog) (optional : List String) (outputType name : String) : Bool :=
  !catalog.isDefined outputType name && !optional.contains name

/-- What is logged of listed sections if no template fails. -/
def missingAmong (catalog : Catalog) (optional : List String) (outputType key : String)
    (names : List String) : List Warning :=
  (names.filter (catalog.isMissing optional outputType)).map
    (Warning.sectionNotFound · outputType key)

theorem missingAmong_cons (name : String) (rest : List String) :
    catalog.missingAmong optional outputType key (name :: rest) =
      catalog.missingAmong optional outputType key [name] ++
        catalog.missingAmong optional outputType key rest := by
  rw [missingAmong, missingAmong, missingAmong, ← List.map_append, ← List.filter_append]
  rfl

theorem missingAmong_of_isDefined (hname : catalog.isDefined outputType name = true) :
    catalog.missingAmong optional outputType key [name] = [] := by
  rw [missingAmong, List.filter_singleton, isMissing, hname]
  rfl

theorem filter_missingWarnings (hname : catalog.isDefined outputType name = false) :
    (missingWarnings settings outputType key name).filter Warning.isOfSection =
      catalog.missingAmong settings.optional outputType key [name] := by
  rw [missingWarnings, missingAmong, List.filter_singleton, isMissing, hname]
  by_cases hoptional : settings.optional.contains name = true
  · rw [if_pos hoptional, hoptional]
    rfl
  · rw [if_neg hoptional, Bool.eq_false_iff.2 hoptional]
    rfl

/-- What is logged of listed sections is the first part of it, and all of it without a fault. -/
theorem exists_warnings_renderSections (catalog : Catalog) (settings : Settings)
    (outputType key : String) (store : Store) (names : List String) :
    let all := catalog.renderSections settings outputType key store names
    ∃ later, catalog.missingAmong settings.optional outputType key names =
        all.warnings.filter Warning.isOfSection ++ later ∧
      ∀ texts, all.result = .ok texts → later = [] := by
  induction names with
  | nil => exact ⟨[], rfl, fun _ _ => rfl⟩
  | cons name rest ih =>
      obtain ⟨later, hwarnings, hlater⟩ := ih
      obtain ⟨hundefined, hall, hresult⟩ | ⟨e, hdefined, -, hall, hresult⟩ |
        ⟨text, hdefined, -, hall, hresult⟩ :=
        renderSections_cons_cases catalog settings outputType key store name rest
      · refine ⟨later, ?_, fun texts htexts => hlater texts (hresult.symm.trans htexts)⟩
        rw [missingAmong_cons, ← filter_missingWarnings hundefined, hwarnings, hall,
          List.filter_append, List.append_assoc]
      · -- The fault ends the document here, so that nothing is logged of this list.
        refine ⟨catalog.missingAmong settings.optional outputType key (name :: rest), ?_,
          fun texts htexts => ?_⟩
        · rw [hall, filter_warnings_renderSection, List.nil_append]
        · cases hresult.symm.trans htexts
      · refine ⟨later, ?_, fun texts htexts => ?_⟩
        · rw [missingAmong_cons, missingAmong_of_isDefined hdefined, hwarnings, hall,
            List.filter_append, filter_warnings_renderSection]
          rfl
        · obtain ⟨others, hothers, -⟩ := eq_ok_of_map (hresult.symm.trans htexts)
          exact hlater others hothers

/-- The sections that are reported as missing for a selection key. -/
def missingSections (catalog : Catalog) (optional : List String) (key : String) : List String :=
  (catalog.issues optional).filterMap (Issue.section? key)

/-- All that can be reported of one selection. -/
theorem issuesOf_cases {own : String} {issue : Issue}
    (h : issue ∈ catalog.issuesOf optional own selection) :
    issue = .unknownOutputType own (selection.outputType.getD own) ∨
      (issue = .emptySelection own ∧ selection.sections = []) ∨
      ∃ name, issue = .missingSection own name := by
  rw [issuesOf, List.mem_append, List.mem_append] at h
  rcases h with (hunknown | hempty) | hmissing
  · split at hunknown
    · exact .inl (List.mem_singleton.1 hunknown)
    · cases hunknown
  · split at hempty
    · next hnil => exact .inr (.inl ⟨List.mem_singleton.1 hempty, List.isEmpty_iff.1 hnil⟩)
    · cases hempty
  · obtain ⟨name, -, rfl⟩ := List.mem_map.1 hmissing
    exact .inr (.inr ⟨name, rfl⟩)

theorem filterMap_issuesOf_of_ne {own : String} (h : own ≠ key) :
    (catalog.issuesOf optional own selection).filterMap (Issue.section? key) = [] := by
  refine List.filterMap_eq_nil_iff.2 fun issue hissue => ?_
  obtain rfl | ⟨rfl, -⟩ | ⟨name, rfl⟩ := issuesOf_cases hissue
  · rfl
  · rfl
  · exact if_neg h

theorem filterMap_issuesOf_self :
    (catalog.issuesOf optional key selection).filterMap (Issue.section? key) =
      selection.sections.filter (catalog.isMissing optional (selection.outputType.getD key)) := by
  have hmissing : ∀ name, catalog.isMissing optional (selection.outputType.getD key) name =
      ((catalog.section? (selection.outputType.getD key) name).isNone && !optional.contains name) := by
    intro name
    rw [isMissing, isDefined_eq, Option.not_isSome]
  have hsection : Issue.section? key ∘ Issue.missingSection key = some := by
    funext name
    exact if_pos rfl
  rw [issuesOf, List.filterMap_append, List.filterMap_append, List.filterMap_map, hsection,
    List.filterMap_some, funext hmissing]
  split <;> split <;> rfl

theorem missingSections_of_selection (hselection : catalog.selection? key = some selection) :
    catalog.missingSections optional key =
      selection.sections.filter (catalog.isMissing optional (selection.outputType.getD key)) := by
  obtain ⟨before, after, hentries, hothers⟩ := Dict.exists_eq_append_cons hselection
  have hnone : ∀ entries ⊆ before ++ after,
      (entries.flatMap fun entry => catalog.issuesOf optional entry.1 entry.2).filterMap
        (Issue.section? key) = [] := by
    intro entries hsub
    rw [List.filterMap_flatMap]
    exact List.flatMap_eq_nil_iff.2 fun entry hentry =>
      filterMap_issuesOf_of_ne (hothers entry (hsub hentry))
  calc catalog.missingSections optional key
      = [] ++ ((catalog.issuesOf optional key selection).filterMap (Issue.section? key) ++ []) := by
        rw [missingSections, issues, hentries, List.flatMap_append, List.flatMap_cons,
          List.filterMap_append, List.filterMap_append,
          hnone before (List.subset_append_left ..), hnone after (List.subset_append_right ..)]
    _ = selection.sections.filter (catalog.isMissing optional (selection.outputType.getD key)) := by
        rw [List.nil_append, List.append_nil, filterMap_issuesOf_self]

theorem mem_issuesOf_emptySelection {own : String} :
    .emptySelection key ∈ catalog.issuesOf optional own selection ↔
      own = key ∧ selection.sections = [] := by
  constructor
  · intro h
    obtain hunknown | ⟨hissue, hempty⟩ | ⟨name, hmissing⟩ := issuesOf_cases h
    · cases hunknown
    · cases hissue
      exact ⟨rfl, hempty⟩
    · cases hmissing
  · rintro ⟨rfl, hempty⟩
    rw [issuesOf, hempty, List.mem_append, List.mem_append]
    exact .inl (.inr List.mem_cons_self)

theorem emptySelection_mem_issues (hselection : catalog.selection? key = some selection) :
    .emptySelection key ∈ catalog.issues optional ↔ selection.sections = [] := by
  obtain ⟨before, after, hentries, hothers⟩ := Dict.exists_eq_append_cons hselection
  rw [issues, List.mem_flatMap, hentries]
  constructor
  · rintro ⟨entry, hentry, hissue⟩
    obtain ⟨hkey, hempty⟩ := mem_issuesOf_emptySelection.1 hissue
    rcases List.mem_append.1 hentry with hbefore | hentry
    · exact absurd hkey (hothers entry (List.mem_append_left _ hbefore))
    · rcases List.mem_cons.1 hentry with rfl | hafter
      · exact hempty
      · exact absurd hkey (hothers entry (List.mem_append_right _ hafter))
  · intro hempty
    exact ⟨(key, selection), by simp, mem_issuesOf_emptySelection.2 ⟨rfl, hempty⟩⟩

theorem sectionsFor?_of_selection (hselection : catalog.selection? key = some selection) :
    catalog.sectionsFor? key = some selection.sections := by
  rw [sectionsFor?, hselection]
  rfl

theorem eq_nil_of_unknownOutputType (hselection : catalog.selection? key = some selection)
    (h : (catalog.assemble settings outputType key store).result =
      .error (.unknownOutputType name)) : selection.sections = [] := by
  have hlisted := sectionsFor?_of_selection hselection
  obtain ⟨-, hnone | hempty⟩ | ⟨names, -, own, -, hdefined, hfault⟩ := exists_error_of_assemble h
  · cases hlisted.symm.trans hnone
  · exact Option.some.inj (hlisted.symm.trans hempty)
  · obtain ⟨cause, hcause⟩ := exists_cause_of_isDefined hdefined hfault
    cases hcause

theorem unknownOutputType_iff (hselection : catalog.selection? key = some selection) :
    (catalog.assemble settings outputType key store).result = .error (.unknownOutputType key) ↔
      selection.sections = [] := by
  refine ⟨eq_nil_of_unknownOutputType hselection, fun hempty => ?_⟩
  rw [assemble_of_nothing_listed (.inr (hempty ▸ sectionsFor?_of_selection hselection))]
  rfl

theorem exists_warnings_assemble (settings : Settings) (outputType : String) (store : Store)
    (hselection : catalog.selection? key = some selection) :
    let document := catalog.assemble settings outputType key store
    ∃ later, catalog.missingAmong settings.optional outputType key selection.sections =
        document.warnings.filter Warning.isOfSection ++ later ∧
      ∀ text, document.result = .ok text → later = [] := by
  intro document
  have hlisted := sectionsFor?_of_selection hselection
  by_cases hempty : selection.sections = []
  · refine ⟨[], ?_, fun _ _ => rfl⟩
    have hdocument : document = .fail (.unknownOutputType key) :=
      assemble_of_nothing_listed (.inr (hempty ▸ hlisted))
    rw [hdocument, hempty]
    rfl
  · have hdocument : document = _ := assemble_of_listed hlisted hempty
    obtain ⟨later, hwarnings, hlater⟩ := catalog.exists_warnings_renderSections settings outputType
      key (catalog.fillIn outputType key store) selection.sections
    refine ⟨later, ?_, fun text htext => ?_⟩
    · rw [hdocument]
      exact hwarnings
    · rw [hdocument] at htext
      obtain ⟨texts, htexts, -⟩ := eq_ok_of_map htext
      exact hlater texts htexts

end Catalog

namespace Engine

/-- **What is reported is what is logged**, up to a fault that breaks the document off. -/
theorem assemble_issues {engine : Engine} {files : FileTree} {catalog : Catalog}
    (hcatalog : engine.catalog files = .ok catalog)
    {key outputType : String} (hkey : catalog.outputTypeFor? key = some outputType)
    (store : Store) :
    let document := (engine.assemble files outputType key store).1
    let logged := document.warnings.filter Warning.isOfSection
    let issues := catalog.issues engine.settings.optional
    let reported := (catalog.missingSections engine.settings.optional key).map
      (Warning.sectionNotFound · outputType key)
    (document.result = .error (.unknownOutputType key) ↔ .emptySelection key ∈ issues) ∧
      logged <+: reported ∧
      (∀ text, document.result = .ok text → logged = reported) ∧
      (issues = [] →
        logged = [] ∧ ∀ name, document.result ≠ .error (.unknownOutputType name)) := by
  intro document logged issues reported
  obtain ⟨selection, hselection, rfl⟩ := Option.map_eq_some_iff.1 hkey
  have hdocument : document =
      catalog.assemble engine.settings (selection.outputType.getD key) key store :=
    congrArg Prod.fst (consult_of_ok hcatalog _)
  have hempty : .emptySelection key ∈ issues ↔ selection.sections = [] :=
    Catalog.emptySelection_mem_issues hselection
  have hreported : reported = catalog.missingAmong engine.settings.optional
      (selection.outputType.getD key) key selection.sections :=
    congrArg (List.map _) (Catalog.missingSections_of_selection hselection)
  obtain ⟨later, hwarnings, hlater⟩ := Catalog.exists_warnings_assemble engine.settings
    (selection.outputType.getD key) store hselection
  rw [← hreported, ← hdocument] at hwarnings
  rw [← hdocument] at hlater
  have hprefix : logged <+: reported := ⟨later, hwarnings.symm⟩
  refine ⟨?_, hprefix, fun text htext => ?_, fun hnone => ⟨?_, fun name h => ?_⟩⟩
  · rw [hempty, hdocument]
    exact Catalog.unknownOutputType_iff hselection
  · rw [hwarnings, hlater text htext, List.append_nil]
  · have hnothing : reported = [] := by
      show List.map _ (issues.filterMap _) = []
      rw [hnone]
      rfl
    exact List.prefix_nil.1 (hnothing ▸ hprefix)
  · rw [hdocument] at h
    have hmem := hempty.2 (Catalog.eq_nil_of_unknownOutputType hselection h)
    rw [hnone] at hmem
    cases hmem

theorem assemble_issues_card :
    let document := (cardEngine.assemble {} "card" "card" {}).1
    cardEngine.catalog {} = .ok cardCatalog ∧
      cardCatalog.outputTypeFor? "card" = some "card" ∧
      document.result = .ok "x: \nx: \nx: " ∧
      document.warnings.filter Warning.isOfSection = [.sectionNotFound "ghost" "card" "card"] := by
  intro document
  have hcatalog : cardEngine.catalog {} = .ok cardCatalog := rfl
  have hkey : cardCatalog.outputTypeFor? "card" = some "card" := rfl
  have htext : (cardEngine.assemble {} "card" "card" {}).1.result = .ok "x: \nx: \nx: " := by
    decide +kernel
  refine ⟨hcatalog, hkey, htext, ?_⟩
  exact (assemble_issues hcatalog hkey {}).2.2.1 _ htext

/-- A document that is broken off before a missing section does not log it. -/
example : (cardEngine.assemble {} "card" "faulty" {}).1.warnings.filter Warning.isOfSection = [] ∧
    cardCatalog.missingSections Catalog.usualOptional "faulty" = ["ghost"] :=
  ⟨by decide +kernel, by decide +kernel⟩

end Engine

end PromptSheet
