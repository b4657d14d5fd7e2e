import PromptSheet.Engine
import PromptSheet.Proofs.FilePlaces
import PromptSheet.Proofs.FillIn
import PromptSheet.Proofs.QuotedTexts
import PromptSheet.Proofs.RenderingLaws

/-!
# Documents of the bundled catalog

The bundled sections include no other templates, so they can be rendered against every store and
leave no warning. Every selection lists the header first, and beyond the sections that are defined
only such as may be missing. So a document is made of every state, and since no kind binds the
header's remark itself, the document starts with the one that the catalog gives it.
-/

namespace PromptSheet

open Template (Node Renderer Include)

namespace Catalog

variable {catalog : Catalog} {settings : Settings} {outputType key name : String} {store : Store}
  {names : List String}

theorem renderSection_of_render {found : Section} {nodes : List Node} {text : String}
    (hfound : catalog.section? outputType name = some found)
    (hparse : Template.parse found.template = .ok nodes)
    (hrender : (catalog.renderer settings outputType).render nodes store =
      Template.Rendering.ofText text) :
    catalog.renderSection settings outputType name store = .ofValue text := by
  rw [renderSection, hfound]
  simp only [renderTemplate, Renderer.renderText, hparse, hrender]
  rfl

theorem renderSections_cons {text : String} {texts : List String}
    (hname : (catalog.section? outputType name).isSome = true)
    (hrender : catalog.renderSection settings outputType name store = .ofValue text)
    (hrest : catalog.renderSections settings outputType key store names = .ofValue texts) :
    catalog.renderSections settings outputType key store (name :: names) =
      .ofValue (text :: texts) := by
  rw [renderSections, if_pos hname, hrender, hrest]
  rfl

theorem renderSections_optional (hname : (catalog.section? outputType name).isSome = false)
    (hoptional : settings.optional.contains name = true) :
    catalog.renderSections settings outputType key store (name :: names) =
      catalog.renderSections settings outputType key store names := by
  rw [renderSections, if_neg (by simp [hname]), missingWarnings, if_pos hoptional]
  rfl

/-- Sections that can all be rendered or may be missing leave their texts and no warning. -/
theorem exists_renderSections
    (hrender : ∀ name ∈ names, (catalog.section? outputType name).isSome = true →
      ∃ text, catalog.renderSection settings outputType name store = .ofValue text)
    (hmissing : ∀ name ∈ names, (catalog.section? outputType name).isSome = true ∨
      settings.optional.contains name = true) :
    ∃ texts, catalog.renderSections settings outputType key store names = .ofValue texts := by
  induction names with
  | nil => exact ⟨[], rfl⟩
  | cons name rest ih =>
      obtain ⟨hname, hrest⟩ := List.forall_mem_cons.1 hrender
      obtain ⟨hlisted, hothers⟩ := List.forall_mem_cons.1 hmissing
      obtain ⟨texts, htexts⟩ := ih hrest hothers
      cases hsome : (catalog.section? outputType name).isSome with
      | true =>
          obtain ⟨text, htext⟩ := hname hsome
          exact ⟨_, renderSections_cons hsome htext htexts⟩
      | false =>
          rw [hsome] at hlisted
          exact ⟨texts, by rw [renderSections_optional hsome (hlisted.resolve_left nofun), htexts]⟩

theorem assemble_of_renderSections {texts : List String}
    (hsections : catalog.sectionsFor? key = some (name :: names))
    (hrender : catalog.renderSections settings outputType key
      (catalog.fillIn outputType key store) (name :: names) = .ofValue texts) :
    catalog.assemble settings outputType key store = .ofValue (joinSections settings texts) := by
  rw [assemble, hsections]
  simp only [hrender]
  rfl

def headerComment? (catalog : Catalog) (outputType : String) : Option String :=
  (catalog.outputType? outputType).bind fun type =>
    (type.headerValues.get? "header_comment").bind Value.asText?

/-- The first line of a document is a remark with the header comment of its output type. -/
def IsHeaded (catalog : Catalog) (outputType document : String) : Prop :=
  ∃ comment ∈ catalog.headerComment? outputType,
    (Text.splitOn '\n' document.toList).head? = some ("# " ++ comment).toList

theorem isHeaded_of_eq {outputType comment document more : String}
    (hcomment : catalog.headerComment? outputType = some comment) (hline : '\n' ∉ comment.toList)
    (hdocument : document = "# " ++ comment ++ "\n" ++ more) :
    catalog.IsHeaded outputType document := by
  have hfree : ∀ c ∈ ("# " ++ comment).toList, (c == '\n') = false := by
    simpa [String.toList_append] using fun c hc => ne_of_mem_of_not_mem hc hline
  refine ⟨comment, hcomment, ?_⟩
  rw [hdocument, Text.splitOn_eq, List.splitOn, String.toList_append, String.toList_append,
    List.append_assoc]
  exact congrArg List.head?
    (List.splitOnP_append_cons_of_forall_mem hfree '\n' (by decide) more.toList)

theorem get?_fillIn_of_staticValue {value : Value} (hfree : store.bindings.get? name = none)
    (hvalue : (catalog.staticValues outputType key).bindings.get? name = some value) :
    (catalog.fillIn outputType key store).bindings.get? name = some value := by
  simp [get?_fillIn_bindings, supplied?, Store.isBound, Dict.contains, hfree, hvalue]

theorem exists_joinSections (text : String) (texts : List String) :
    ∃ more, joinSections {} (text :: texts) = text ++ more := by
  cases texts with
  | nil => exact ⟨"", by simp [joinSections]⟩
  | cons next rest =>
      exact ⟨"\n" ++ "\n".intercalate (next :: rest), by
        simp [joinSections, String.intercalate_cons_cons, String.append_assoc]⟩

end Catalog

namespace Bundled

theorem inclusionsOf_allTrees : ∀ tree ∈ allTrees, Node.inclusionsOf tree.2 = [] := by
  decide +kernel

theorem exists_renderSection {kind : Kind} {name : String} (settings : Settings) (store : Store)
    (h : (Catalog.bundled.section? kind.name name).isSome = true) :
    ∃ text, Catalog.bundled.renderSection settings kind.name name store = .ofValue text := by
  obtain ⟨found, hfound⟩ := Option.isSome_iff_exists.1 h
  obtain ⟨tree, htree, rfl⟩ := exists_tree hfound
  obtain ⟨incl, hincl⟩ := (Catalog.bundled.renderer settings kind.name).exists_include
  obtain ⟨text, htext⟩ := Node.isSilent_renderAll incl tree.2
    (inclusionsOf_allTrees tree (mem_allTrees htree)) store
  exact ⟨text, Catalog.renderSection_of_render hfound (parse_template htree)
    ((hincl _ _).trans htext)⟩

theorem section?_header (kind : Kind) : ∃ tree ∈ trees kind, tree.2 = header ∧
    Catalog.bundled.section? kind.name "header" = some (.ofNodes tree.1 tree.2) := by
  refine ⟨(some "Document comment, type, title and author", header),
    List.mem_append_right _ (by simp [sharedTrees]), rfl, ?_⟩
  cases kind <;> rfl

theorem exists_render_header (incl : Include) (store : Store) :
    ∃ more, Node.renderAll incl header store = Template.Rendering.ofText
      ("# " ++ Template.slotText store "header_comment" ++ "\n" ++ more) := by
  obtain ⟨more, hmore⟩ := Node.isSilent_renderAll incl (header.drop 3) (by rfl) store
  refine ⟨"type: " ++ more, ?_⟩
  rw [show header = .text "# " :: .slot "header_comment" :: .text ("\n" ++ "type: ") ::
      header.drop 3 from rfl, Node.renderAll_cons, Node.renderAll_cons, Node.renderAll_cons, hmore]
  simp only [Node.render, ← Template.Rendering.ofText_append, String.append_assoc]

theorem exists_renderSection_header (settings : Settings) (kind : Kind) (store : Store) :
    ∃ more, Catalog.bundled.renderSection settings kind.name "header" store =
      .ofValue ("# " ++ Template.slotText store "header_comment" ++ "\n" ++ more) := by
  obtain ⟨tree, hmem, hheader, hsection⟩ := section?_header kind
  obtain ⟨incl, hincl⟩ := (Catalog.bundled.renderer settings kind.name).exists_include
  obtain ⟨more, hmore⟩ := exists_render_header incl store
  rw [← hheader] at hmore
  exact ⟨more, Catalog.renderSection_of_render hsection (parse_template hmem)
    ((hincl _ _).trans hmore)⟩

/-- Every selection starts with the header, and what it lists is defined or may be missing. -/
theorem listed_bundled : ∀ kind ∈ Kind.all, ∀ key ∈ kind.selectionKeys,
    ((Catalog.bundled.sectionsFor? key).bind List.head?) = some "header" ∧
      ∀ name ∈ (Catalog.bundled.sectionsFor? key).getD [],
        (Catalog.bundled.section? kind.name name).isSome = true ∨
          Catalog.usualOptional.contains name = true := by
  decide +kernel

end Bundled

namespace Binding

/-- None of the entries is of this name. -/
def LeaveFree (name : String) (entries : List Entry) : Prop :=
  ∀ entry ∈ entries, entry.1 ≠ name

section LeaveFree

variable {name : String} {entry : Entry} {first second : List Entry}

@[simp]
theorem leaveFree_nil : LeaveFree name [] :=
  List.forall_mem_nil _

@[simp]
theorem leaveFree_cons : LeaveFree name (entry :: first) ↔ entry.1 ≠ name ∧ LeaveFree name first :=
  List.forall_mem_cons

@[simp]
theorem leaveFree_append :
    LeaveFree name (first ++ second) ↔ LeaveFree name first ∧ LeaveFree name second :=
  List.forall_mem_append

@[simp]
theorem flag_fst (on : Bool) : (flag name on).1 = name := rfl

@[simp]
theorem quoted_fst (content : String) : (quoted name content).1 = name := rfl

@[simp]
theorem folded_fst (content : String) : (folded name content).1 = name := rfl

theorem leaveFree_unlessBlank (h : entry.1 ≠ name) : LeaveFree name (unlessBlank entry) :=
  fun _ hother => eq_of_mem_unlessBlank hother ▸ h

@[simp]
theorem leaveFree_unlessBlank_quoted {own : String} (h : own ≠ name) (content : String) :
    LeaveFree name (unlessBlank (quoted own content)) :=
  leaveFree_unlessBlank h

@[simp]
theorem leaveFree_unlessBlank_folded {own : String} (h : own ≠ name) (content : String) :
    LeaveFree name (unlessBlank (folded own content)) :=
  leaveFree_unlessBlank h

@[simp]
theorem leaveFree_image {own : String} (h : own ≠ name) (path : String) :
    LeaveFree name (image own path) := by
  rw [image]
  split <;> simp [h]

@[simp]
theorem leaveFree_ite {condition : Prop} [Decidable condition] (hfirst : LeaveFree name first)
    (hsecond : LeaveFree name second) :
    LeaveFree name (if condition then first else second) := by
  split <;> assumption

end LeaveFree

theorem get?_withBlock {α : Type} {name : String} {state : State} {block : Option α}
    {entries : α → List Entry} (hshared : LeaveFree name (sharedEntries state))
    (h : ∀ settings, LeaveFree name (entries settings)) :
    (withBlock block entries state).bindings.get? name = none := by
  have hfree : (shared state).bindings.get? name = none := Dict.get?_insertAll_of_forall_ne hshared
  cases block with
  | none => exact hfree
  | some settings => exact (Dict.get?_insertAll_of_forall_ne (h settings)).trans hfree

end Binding

theorem Kind.get?_bind_header_comment (kind : Kind) (state : State) :
    (kind.bind state).bindings.get? "header_comment" = none := by
  have hshared : Binding.LeaveFree "header_comment" (Binding.sharedEntries state) := by
    simp [Binding.sharedEntries]
  cases kind with
  | faceSheet =>
      exact Binding.get?_withBlock hshared fun sheet => by
        simp [Binding.faceSheetEntries, Binding.styleEntries]
  | bodySheet =>
      exact Binding.get?_withBlock hshared fun sheet => by
        simp [Binding.bodySheetEntries, Binding.styleEntries]
  | outfitSheet =>
      exact Binding.get?_withBlock hshared fun outfit => by simp [Binding.outfitEntries]
  | pose => exact Binding.get?_withBlock hshared fun pose => by simp [Binding.poseEntries]
  | sceneBuilder =>
      exact Binding.get?_withBlock hshared fun scene => by simp [Binding.sceneEntries]
  | background =>
      exact Binding.get?_withBlock hshared fun background => by simp [Binding.backgroundEntries]
  | decorativeText =>
      exact Binding.get?_withBlock hshared fun lettering => by simp [Binding.decorativeTextEntries]
  | fourPanel =>
      exact Binding.get?_withBlock hshared fun comic => by simp [Binding.fourPanelEntries]
  | styleTransform =>
      exact Binding.get?_withBlock hshared fun transform => by
        simp [Binding.styleTransformEntries]
  | infographic =>
      exact Binding.get?_withBlock hshared fun infographic => by
        simp [Binding.infographicEntries]


namespace Bundled

theorem headerComment_bundled : ∀ kind ∈ Kind.all, ∀ key ∈ kind.selectionKeys,
    ∃ comment ∈ Catalog.bundled.headerComment? kind.name, '\n' ∉ comment.toList ∧
      ((Catalog.bundled.staticValues kind.name key).bindings.get? "header_comment").bind
        Value.asText? = some comment := by
  decide +kernel

theorem exists_slotText_fillIn {kind : Kind} {key : String} (hkey : key ∈ kind.selectionKeys)
    {store : Store} (hfree : store.bindings.get? "header_comment" = none) :
    ∃ comment, Catalog.bundled.headerComment? kind.name = some comment ∧ '\n' ∉ comment.toList ∧
      Template.slotText (Catalog.bundled.fillIn kind.name key store) "header_comment" = comment := by
  obtain ⟨comment, hcomment, hline, hstatic⟩ := headerComment_bundled kind (mem_all kind) key hkey
  obtain ⟨value, hvalue, htext⟩ := Option.bind_eq_some_iff.1 hstatic
  obtain rfl := Value.asText?_eq_some_iff.1 htext
  exact ⟨comment, hcomment, hline,
    Binding.slotText_of_get? (by decide) (Catalog.get?_fillIn_of_staticValue hfree hvalue)⟩

/-- Of every store that leaves the remark to the catalog, a document is made under its heading. -/
theorem exists_assemble {kind : Kind} {key : String} (hkey : key ∈ kind.selectionKeys)
    {store : Store} (hfree : store.bindings.get? "header_comment" = none) :
    ∃ document, Catalog.bundled.assemble {} kind.name key store = .ofValue document ∧
      Catalog.bundled.IsHeaded kind.name document := by
  obtain ⟨comment, hcomment, hline, hslot⟩ := exists_slotText_fillIn hkey hfree
  obtain ⟨more, hheader⟩ := exists_renderSection_header {} kind
    (Catalog.bundled.fillIn kind.name key store)
  rw [hslot] at hheader
  obtain ⟨hfirst, hlisted⟩ := listed_bundled kind (mem_all kind) key hkey
  obtain ⟨names, hsections, hhead⟩ := Option.bind_eq_some_iff.1 hfirst
  obtain ⟨rest, rfl⟩ := List.head?_eq_some_iff.1 hhead
  rw [hsections] at hlisted
  obtain ⟨-, hothers⟩ := List.forall_mem_cons.1 hlisted
  obtain ⟨texts, htexts⟩ := Catalog.exists_renderSections
    (fun name _ hname => exists_renderSection {} (Catalog.bundled.fillIn kind.name key store) hname)
    hothers
  obtain ⟨_, -, -, hsection⟩ := section?_header kind
  have hsome : (Catalog.bundled.section? kind.name "header").isSome = true := by rw [hsection]; rfl
  obtain ⟨tail, htail⟩ := Catalog.exists_joinSections ("# " ++ comment ++ "\n" ++ more) texts
  refine ⟨_, Catalog.assemble_of_renderSections hsections
    (Catalog.renderSections_cons hsome hheader htexts), ?_⟩
  exact Catalog.isHeaded_of_eq hcomment hline (htail.trans (String.append_assoc ..))

end Bundled

namespace Engine

variable {engine : Engine}

theorem consult_bundled {α : Type} (h : engine = {} ∨ engine = withCatalog {} .bundled)
    (files : FileTree) (work : Catalog → Logged Error α) :
    (engine.consult files work).1 = work .bundled := by
  have hcatalog : engine.catalog files = .ok .bundled := by
    obtain rfl | rfl := h <;> rfl
  rw [consult_of_ok hcatalog]

/-- **No state makes the default engine fail or warn**, whether or not it has its catalog yet, and
every document is headed by the remark of its output type. -/
theorem generate_bundled (h : engine = {} ∨ engine = withCatalog {} .bundled) (files : FileTree)
    (kind : Kind) (state : State) :
    (∃ document, (engine.generate files kind state).1 = .ofValue document ∧
        Catalog.bundled.IsHeaded kind.name document) ∧
      ∀ key ∈ kind.selectionKeys, ∃ document,
        (engine.generateForKey files kind key state).1 = .ofValue document ∧
          Catalog.bundled.IsHeaded kind.name document := by
  have hregistry : engine.registry = .builtin := by
    obtain rfl | rfl := h <;> rfl
  have hsettings : engine.settings = {} := by
    obtain rfl | rfl := h <;> rfl
  have hkey : ∀ key ∈ kind.selectionKeys, ∃ document,
      (engine.generateForKey files kind key state).1 = .ofValue document ∧
        Catalog.bundled.IsHeaded kind.name document := by
    intro key hkey
    rw [generateForKey_of_builtin hregistry, assemble, consult_bundled h, hsettings]
    exact Bundled.exists_assemble hkey (kind.get?_bind_header_comment state)
  exact ⟨hkey _ (kind.selectionKey_mem state), hkey⟩

theorem generate_bundled_bossRaid :
    let engine : Engine := withCatalog {} .bundled
    let state : State :=
      { title := "\n\x7b\x7b#if \"title\"",
        sceneBuilder := some { sceneType := .battle, characters := [{ name := "@index" }] } }
    (engine = {} ∨ engine = withCatalog {} .bundled) ∧
      "scene_builder_boss_raid" ∈ Kind.sceneBuilder.selectionKeys ∧
        ∃ document, (engine.generateForKey {} .sceneBuilder "scene_builder_boss_raid" state).1 =
          .ofValue document ∧ Catalog.bundled.IsHeaded "scene_builder" document := by
  intro engine state
  have hkey : "scene_builder_boss_raid" ∈ Kind.sceneBuilder.selectionKeys := by decide
  exact ⟨.inr rfl, hkey, (generate_bundled (.inr rfl) {} .sceneBuilder state).2 _ hkey⟩

end Engine

end PromptSheet
