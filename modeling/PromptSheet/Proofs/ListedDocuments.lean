import PromptSheet.Proofs.BundledDocuments
import PromptSheet.Proofs.ListedEntries
import PromptSheet.Proofs.SectionBySection
import PromptSheet.Proofs.SettledLabels

/-!
# Lists in the documents of the bundled catalog

A comic, an infographic and a scene list what the user has entered. Whatever else is in the state
and whatever the selection, the document has one section for the list, and its text is the one that
is written down for the settings.

The catalog fills in nothing under the names of the lists, so without a block of settings the list
is that of settings nobody has touched, which is empty.
-/

namespace PromptSheet

open Template (Node)

namespace Bundled

open Binding (LeaveFree)

/-- The catalog binds no value and no label of this name. -/
def LeavesFree (kind : Kind) (key name : String) : Prop :=
  ((Catalog.bundled.staticValues kind.name key).bindings.get? name).isNone = true ∧
    ∀ table ∈ Catalog.bundled.selectionMap.labels.entries, name ≠ labelName table.1

instance (kind : Kind) (key name : String) : Decidable (LeavesFree kind key name) :=
  inferInstanceAs (Decidable (_ ∧ _))

section Filled

variable {kind : Kind} {key name : String} {store : Store}

theorem LeavesFree.get?_filled (h : LeavesFree kind key name)
    (hstore : store.bindings.get? name = none) :
    (Catalog.bundled.fillIn kind.name key store).bindings.get? name = none := by
  have hbound : ¬store.isBound name = true := Store.not_isBound_iff.2 hstore
  have hstatic := Option.isNone_iff_eq_none.1 h.1
  rw [Catalog.get?_fillIn_bindings, hstore, Catalog.supplied?, if_neg hbound]
  simp only [hstatic, labelFor?_eq_none h.2]
  rfl

theorem getList?_fillIn {items : List Record}
    (hstore : store.bindings.get? name = some (.list items)) :
    (Catalog.bundled.fillIn kind.name key store).getList? name = some items := by
  have hget := Catalog.keptBy_fillIn Catalog.bundled kind.name key store name _ hstore
  rw [Store.getList?, Store.get?, hget]
  rfl

theorem getList?_fillIn_eq_none (h : LeavesFree kind key name) (hdot : '.' ∉ name.toList)
    (hstore : store.bindings.get? name = none) :
    (Catalog.bundled.fillIn kind.name key store).getList? name = none := by
  rw [Store.getList?, Store.get?, h.get?_filled hstore]
  simp [hdot]

/-- The records that a block of settings binds to a name; without a block there are none. -/
theorem getD_getList?_fillIn {α : Type} (block : Option α) (entries : α → List Binding.Entry)
    (items : α → List Record) {untouched : α} (state : State) (h : LeavesFree kind key name)
    (hdot : '.' ∉ name.toList) (hshared : LeaveFree name (Binding.sharedEntries state))
    (hentries : ∀ settings, ∃ before after, entries settings =
      before ++ (name, .list (items settings)) :: after ∧ LeaveFree name after)
    (hnone : items untouched = []) :
    ((Catalog.bundled.fillIn kind.name key (Binding.withBlock block entries state)).getList?
      name).getD [] = items (block.getD untouched) := by
  cases block with
  | none =>
      have hfree : (Binding.withBlock none entries state).bindings.get? name = none :=
        Dict.get?_insertAll_of_forall_ne hshared
      rw [getList?_fillIn_eq_none h hdot hfree]
      exact hnone.symm
  | some settings =>
      obtain ⟨before, after, hsplit, hafter⟩ := hentries settings
      have hget : (Binding.withBlock (some settings) entries state).bindings.get? name =
          some (.list (items settings)) := by
        show ((Binding.shared state).bindings.insertAll (entries settings)).get? name = _
        rw [hsplit]
        exact Dict.get?_insertAll_append_cons before hafter
      rw [getList?_fillIn hget]
      rfl

end Filled

theorem leavesFree_fourPanel : ∀ key ∈ Kind.fourPanel.selectionKeys,
    LeavesFree .fourPanel key "panels" ∧ LeavesFree .fourPanel key "narration" := by
  decide +kernel

theorem leavesFree_infographic : ∀ key ∈ Kind.infographic.selectionKeys,
    LeavesFree .infographic key "info_sections" := by
  decide +kernel

theorem leavesFree_sceneBuilder : ∀ key ∈ Kind.sceneBuilder.selectionKeys,
    LeavesFree .sceneBuilder key "characters" := by
  decide +kernel

end Bundled

namespace Catalog

/-- The document joins one text for each section that is listed and defined, and wherever this one
is listed the text is this one. -/
def ShowsSection (catalog : Catalog) (outputType key name text document : String) : Prop :=
  ∃ names texts, catalog.sectionsFor? key = some names ∧ name ∈ names ∧
    catalog.isDefined outputType name = true ∧
    List.Forall₂ (fun listed shown => listed = name → shown = text)
      (names.filter (catalog.isDefined outputType)) texts ∧
    document = "\n".intercalate texts

end Catalog

namespace Bundled

section Sections

variable {kind : Kind} {key name text : String} {settings : Settings} {store : Store}

theorem renderSection_of_tree {tree : Option String × List Node} (htree : tree ∈ trees kind)
    (hsection : Catalog.bundled.section? kind.name name = some (.ofNodes tree.1 tree.2))
    (hrender : ∀ incl, Node.renderAll incl tree.2 store = Template.Rendering.ofText text) :
    Catalog.bundled.renderSection settings kind.name name store = .ofValue text := by
  obtain ⟨incl, hincl⟩ := (Catalog.bundled.renderer settings kind.name).exists_include
  exact Catalog.renderSection_of_render hsection (parse_template htree)
    ((hincl _ _).trans (hrender incl))

theorem not_isFault_renderSection {e : Error}
    (h : (Catalog.bundled.renderSection settings kind.name name store).result = .error e) :
    ¬e.IsFault := by
  intro hfault
  have hdefined := (Catalog.isFault_iff_isDefined h).1 hfault
  rw [Catalog.isDefined_eq] at hdefined
  obtain ⟨text, htext⟩ := exists_renderSection settings store hdefined
  rw [htext] at h
  cases h

theorem exists_showsSection (hkey : key ∈ kind.selectionKeys)
    (hname : name ∈ (Catalog.bundled.sectionsFor? key).getD [])
    (hdefined : Catalog.bundled.isDefined kind.name name = true)
    (hprunes : settings.prunes = false)
    (hrender : Catalog.bundled.renderSection settings kind.name name
      (Catalog.bundled.fillIn kind.name key store) = .ofValue text) :
    ∃ document, (Catalog.bundled.assemble settings kind.name key store).result = .ok document ∧
      Catalog.bundled.ShowsSection kind.name key name text document := by
  obtain ⟨hfirst, -⟩ := listed_bundled kind (mem_all kind) key hkey
  obtain ⟨names, hnames, hhead⟩ := Option.bind_eq_some_iff.1 hfirst
  have hne : names ≠ [] := by
    rintro rfl
    cases hhead
  rw [hnames] at hname
  obtain ⟨texts, htexts, hdocument⟩ :=
    (Catalog.bundled.isSectionwise_assemble settings kind.name key store).no_fault names hnames hne
      fun _ _ e h => not_isFault_renderSection h
  rw [hprunes] at hdocument
  refine ⟨_, hdocument, names, texts, hnames, hname, hdefined, htexts.imp ?_, rfl⟩
  rintro listed shown hshown rfl
  rw [hrender] at hshown
  exact (Except.ok.inj hshown).symm

end Sections

end Bundled

namespace Engine

/-- Under every selection the document of this state has this text for the section of this name. -/
def ShowsSection (engine : Engine) (files : FileTree) (kind : Kind) (state : State)
    (name text : String) : Prop :=
  ∀ key ∈ kind.selectionKeys, ∃ document,
    (engine.generateForKey files kind key state).1.result = .ok document ∧
      Catalog.bundled.ShowsSection kind.name key name text document

section Documents

variable {engine : Engine} {files : FileTree} {kind : Kind} {state : State} {name text : String}

theorem showsSection_of_renderSection (hregistry : engine.registry = .builtin)
    (hcatalog : engine.catalog files = .ok .bundled) (hprunes : engine.settings.prunes = false)
    (hname : ∀ key ∈ kind.selectionKeys, name ∈ (Catalog.bundled.sectionsFor? key).getD [])
    (hdefined : Catalog.bundled.isDefined kind.name name = true)
    (hrender : ∀ key ∈ kind.selectionKeys, Catalog.bundled.renderSection engine.settings kind.name
      name (Catalog.bundled.fillIn kind.name key (kind.bind state)) = .ofValue text) :
    engine.ShowsSection files kind state name text := by
  intro key hkey
  rw [generateForKey_of_builtin hregistry, assemble, consult_of_ok hcatalog]
  exact Bundled.exists_showsSection hkey (hname key hkey) hdefined hprunes (hrender key hkey)

end Documents

end Engine

namespace Bundled

variable (settings : Settings) (state : State) (key : String)

theorem renderSection_panels (hkey : key ∈ Kind.fourPanel.selectionKeys) :
    Catalog.bundled.renderSection settings Kind.fourPanel.name "panels"
      (Catalog.bundled.fillIn Kind.fourPanel.name key (Kind.fourPanel.bind state)) =
      .ofValue (state.fourPanel.getD {}).panelsText := by
  have htree : (none, FourPanel.panels) ∈ trees .fourPanel := by simp [trees, ownTrees]
  obtain ⟨hpanels, hnarration⟩ := leavesFree_fourPanel key hkey
  have hunbound : (Kind.fourPanel.bind state).bindings.get? "narration" = none :=
    Binding.get?_withBlock (by simp [Binding.sharedEntries]) fun comic => by
      simp [Binding.fourPanelEntries]
  have hlist := getD_getList?_fillIn state.fourPanel Binding.fourPanelEntries
    (fun comic => Binding.panelRecords comic 0 comic.panels) state hpanels (by decide)
    (by simp [Binding.sharedEntries]) (fun comic => ⟨[_, _], [], rfl, by simp⟩)
    (show Binding.panelRecords {} 0 [] = [] from rfl)
  exact renderSection_of_tree htree rfl fun incl => PromptSheet.FourPanel.renderAll_panels _ incl _
    (hnarration.get?_filled hunbound) hlist

theorem renderSection_sections (hkey : key ∈ Kind.infographic.selectionKeys) :
    Catalog.bundled.renderSection settings Kind.infographic.name "sections"
      (Catalog.bundled.fillIn Kind.infographic.name key (Kind.infographic.bind state)) =
      .ofValue (state.infographic.getD {}).sectionsText := by
  have htree : (none, Infographic.infoSections) ∈ trees .infographic := by simp [trees, ownTrees]
  have hlist := getD_getList?_fillIn state.infographic Binding.infographicEntries
    Binding.infoSections state (leavesFree_infographic key hkey) (by decide)
    (by simp [Binding.sharedEntries]) (fun infographic => ⟨_, [], rfl, by simp⟩)
    (show Binding.infoSections {} = [] from rfl)
  exact renderSection_of_tree htree rfl fun incl =>
    PromptSheet.Infographic.renderAll_sections _ incl _ hlist

theorem renderSection_characters (hkey : key ∈ Kind.sceneBuilder.selectionKeys) :
    Catalog.bundled.renderSection settings Kind.sceneBuilder.name "characters"
      (Catalog.bundled.fillIn Kind.sceneBuilder.name key (Kind.sceneBuilder.bind state)) =
      .ofValue (state.sceneBuilder.getD {}).charactersText := by
  have htree : (none, SceneBuilder.characters) ∈ trees .sceneBuilder := by simp [trees, ownTrees]
  have hentries : ∀ scene, ∃ before after, Binding.sceneEntries scene =
      before ++ ("characters", .list (Binding.sceneCharacters scene)) :: after ∧
        Binding.LeaveFree "characters" after := by
    intro scene
    refine ⟨[Binding.word "scene_type" scene.sceneType.name] ++
      Binding.image "background_image_path" scene.backgroundImagePath ++
      Binding.unlessBlank (Binding.folded "scene_description" scene.sceneDescription) ++
      [("character_count", .ofCount (Binding.sceneCharacters scene).length)],
      Binding.unlessBlank (Binding.quoted "narration" scene.narration), ?_, by simp⟩
    simp [Binding.sceneEntries]
  have hlist := getD_getList?_fillIn state.sceneBuilder Binding.sceneEntries
    Binding.sceneCharacters state (leavesFree_sceneBuilder key hkey) (by decide)
    (by simp [Binding.sharedEntries]) hentries (show Binding.sceneCharacters {} = [] from rfl)
  exact renderSection_of_tree htree rfl fun incl => Scene.renderAll_characters _ incl _ hlist

end Bundled

namespace Engine

/-- **Lists reach the document entry by entry**: of every state, the panels of a comic, the sections
of an infographic and the characters of a scene are shown as it is written down for them. -/
theorem generate_lists {engine : Engine} {files : FileTree} (hregistry : engine.registry = .builtin)
    (hcatalog : engine.catalog files = .ok .bundled) (hprunes : engine.settings.prunes = false)
    (state : State) :
    engine.ShowsSection files .fourPanel state "panels" (state.fourPanel.getD {}).panelsText ∧
      engine.ShowsSection files .infographic state "sections"
        (state.infographic.getD {}).sectionsText ∧
      engine.ShowsSection files .sceneBuilder state "characters"
        (state.sceneBuilder.getD {}).charactersText := by
  refine ⟨?_, ?_, ?_⟩
  · exact showsSection_of_renderSection hregistry hcatalog hprunes (by decide +kernel) rfl
      (Bundled.renderSection_panels engine.settings state)
  · exact showsSection_of_renderSection hregistry hcatalog hprunes (by decide +kernel) rfl
      (Bundled.renderSection_sections engine.settings state)
  · exact showsSection_of_renderSection hregistry hcatalog hprunes (by decide +kernel) rfl
      (Bundled.renderSection_characters engine.settings state)

/-- A panel without narration, one of whose speeches has no speaker. -/
theorem generate_lists_reply :
    let comic : FourPanel :=
      { panels :=
          [{ scene := "a\nb"
             speeches := [{ text := "lost" }, { speaker := .character2, text := "\"hi\"" }] }] }
    ({} : Engine).registry = .builtin ∧ ({} : Engine).catalog {} = .ok .bundled ∧
      ({} : Engine).settings.prunes = false ∧
      ({} : Engine).ShowsSection {} .fourPanel { fourPanel := some comic } "panels"
        ("panels:\n  - panel: 1\n    label: introduction\n    prompt: \"a, b\"\n    speeches:" ++
          "\n      - character: \"Character 2\"\n        content: \"\\\"hi\\\"\"" ++
          "\n        position: right\n") := by
  intro comic
  have htext : comic.panelsText =
      "panels:\n  - panel: 1\n    label: introduction\n    prompt: \"a, b\"\n    speeches:" ++
        "\n      - character: \"Character 2\"\n        content: \"\\\"hi\\\"\"" ++
        "\n        position: right\n" := by decide +kernel
  rw [← htext]
  exact ⟨rfl, rfl, rfl, (generate_lists rfl rfl rfl { fourPanel := some comic }).1⟩

end Engine

end PromptSheet
