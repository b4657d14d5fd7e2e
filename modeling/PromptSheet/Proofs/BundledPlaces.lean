import PromptSheet.Binding.Registry
import PromptSheet.Catalog.Bundled
import PromptSheet.Proofs.PrintParse
import PromptSheet.Proofs.QuotedPlaces

/-!
# The quoted places of the bundled catalog

Each bundled section is the text of a tree, and reading it gives this tree back. So what the sections
of a kind put between quotes can be read off their trees. Apart from a few names that a kind binds as
they stand, and that its sections leave without quotes, any name may occur there.
-/

namespace PromptSheet

open Template (Node Place IsLiteral IsBraceless)

/-- One of the sections that the selection keys of a kind list has this place. -/
def Catalog.Quotes (catalog : Catalog) (kind : Kind) (place : Place) : Prop :=
  ∃ key ∈ kind.selectionKeys, ∃ name ∈ (catalog.sectionsFor? key).getD [], ∃ found,
    catalog.section? kind.name name = some found ∧
      ∃ nodes, Template.parse found.template = .ok nodes ∧ place ∈ Node.quotedPlaces nodes

namespace Bundled

def ownTrees : Kind → List (Option String × List Node)
  | .faceSheet =>
    [(none, FaceSheet.character), (none, FaceSheet.layout),
     (some "Only rendered with a reference image", FaceSheet.referenceImage)]
  | .bodySheet => [(none, BodySheet.body), (none, BodySheet.reference)]
  | .outfitSheet => [(none, OutfitSheet.base), (none, OutfitSheet.outfit)]
  | .pose => [(none, Pose.effects), (none, Pose.pose), (none, Pose.reference)]
  | .sceneBuilder =>
    [(none, SceneBuilder.battleEffects), (none, SceneBuilder.boss), (none, SceneBuilder.characters),
     (none, SceneBuilder.narration), (none, SceneBuilder.scene)]
  | .background => [(none, Background.background), (none, Background.reference)]
  | .decorativeText => [(none, DecorativeText.background), (none, DecorativeText.text)]
  | .fourPanel =>
    [(none, FourPanel.characters), (none, FourPanel.layout), (none, FourPanel.panels)]
  | .styleTransform => [(none, StyleTransform.source), (none, StyleTransform.transform)]
  | .infographic =>
    [(none, Infographic.characters), (none, Infographic.content), (none, Infographic.infoSections)]

def sharedTrees : List (Option String × List Node) :=
  [(some "Things the model must not add", antiHallucination),
   (some "Proportions for character sheets", characterStyle),
   (some "Generic layout constraints", constraints),
   (some "Document comment, type, title and author", header),
   (some "Output format from the output type's output_values", output),
   (some "Rendering style and color mode", style),
   (some "Title drawn into the image when enabled", titleOverlay)]

def trees (kind : Kind) : List (Option String × List Node) :=
  ownTrees kind ++ sharedTrees

theorem exists_outputType (kind : Kind) : ∃ type, Catalog.bundled.outputType? kind.name = some type ∧
    type.sections.entries.map Prod.snd =
      (ownTrees kind).map fun tree => Section.ofNodes tree.1 tree.2 := by
  cases kind <;> exact ⟨_, rfl, rfl⟩

theorem map_sharedSections : Catalog.bundled.master.commonSections.entries.map Prod.snd =
    sharedTrees.map fun tree => Section.ofNodes tree.1 tree.2 := rfl

theorem exists_mem_of_find? {sections : Dict Section} {trees : List (Option String × List Node)}
    {name : String} {found : Section} (hfind : sections.get? name = some found)
    (h : sections.entries.map Prod.snd = trees.map fun tree => Section.ofNodes tree.1 tree.2) :
    ∃ tree ∈ trees, found = .ofNodes tree.1 tree.2 := by
  have hmem : found ∈ sections.entries.map Prod.snd :=
    List.mem_map.2 ⟨(name, found), Dict.mem_of_find? hfind, rfl⟩
  rw [h] at hmem
  obtain ⟨tree, htree, rfl⟩ := List.mem_map.1 hmem
  exact ⟨tree, htree, rfl⟩

theorem exists_tree {kind : Kind} {name : String} {found : Section}
    (h : Catalog.bundled.section? kind.name name = some found) :
    ∃ tree ∈ trees kind, found = .ofNodes tree.1 tree.2 := by
  obtain ⟨type, htype, hown⟩ := exists_outputType kind
  rw [Catalog.section?, htype] at h
  simp only [Option.bind_some] at h
  cases hget : type.sections.get? name with
  | some own =>
      rw [hget] at h
      cases h
      obtain ⟨tree, htree, rfl⟩ := exists_mem_of_find? hget hown
      exact ⟨tree, List.mem_append_left _ htree, rfl⟩
  | none =>
      rw [hget] at h
      obtain ⟨tree, htree, rfl⟩ := exists_mem_of_find? h map_sharedSections
      exact ⟨tree, List.mem_append_right _ htree, rfl⟩

theorem isPlain_text {chars : List Char} (h : IsLiteral chars) :
    (Node.text (String.ofList chars)).IsPlain := by
  show IsLiteral (String.ofList chars).toList
  rwa [String.toList_ofList]

theorem isBraceless_of_chars {chars : List Char} (h : IsBraceless chars) :
    IsBraceless (String.ofList chars).toList := by
  rwa [String.toList_ofList]

theorem isLiteral_of_isBraceless {s : List Char} (hne : s ≠ []) (h : IsBraceless s) :
    IsLiteral s where
  nonempty := hne
  noOpening hopening := h '{' (hopening.subset List.mem_cons_self) (.inl rfl)
  last hlast := h '{' (List.mem_of_getLast? hlast) (.inl rfl)

theorem mem_lines {texts : List String} {c : Char}
    (hc : c ∈ (String.join (texts.map (· ++ "\n"))).toList) :
    c = '\n' ∨ ∃ text ∈ texts, c ∈ text.toList := by
  rw [String.toList_join] at hc
  obtain ⟨line, hline, hmem⟩ := List.mem_flatMap.1 hc
  obtain ⟨text, htext, rfl⟩ := List.mem_map.1 hline
  rw [String.toList_append] at hmem
  obtain hmem | hmem := List.mem_append.1 hmem
  · exact .inr ⟨text, htext, hmem⟩
  · exact .inl (by simpa using hmem)

theorem isPlain_lines {texts : List String} (hne : texts ≠ [])
    (h : ∀ text ∈ texts, IsBraceless text.toList) : (Node.lines texts).IsPlain := by
  refine isLiteral_of_isBraceless ?_ fun c hc => ?_
  · obtain ⟨text, rest, rfl⟩ := List.exists_cons_of_ne_nil hne
    rw [String.toList_join]
    simp
  · obtain rfl | ⟨text, htext, hmem⟩ := mem_lines hc
    · decide
    · exact h text htext c hmem

def allTrees : List (Option String × List Node) :=
  Kind.all.flatMap ownTrees ++ sharedTrees

-- The long texts are taken apart by unification, since decoding them is what makes deciding slow.
theorem allPlain_allTrees : ∀ tree ∈ allTrees, Node.AllPlain tree.2 := by
  simp only [allTrees, Kind.all, List.flatMap_cons, List.flatMap_nil, ownTrees, sharedTrees,
    List.cons_append, List.nil_append, List.append_nil, List.forall_mem_cons]
  repeat' apply And.intro
  all_goals first
    | with_reducible apply isPlain_lines
      · decide
      · simp only [List.forall_mem_cons, List.not_mem_nil, false_imp_iff, implies_true, and_true]
        repeat' apply And.intro
        all_goals exact isBraceless_of_chars (by decide +kernel)
    | exact isPlain_text (by decide +kernel)
    | decide +kernel

theorem mem_all (kind : Kind) : kind ∈ Kind.all := by
  cases kind <;> decide

theorem mem_allTrees {kind : Kind} {tree : Option String × List Node} (h : tree ∈ trees kind) :
    tree ∈ allTrees := by
  obtain hown | hshared := List.mem_append.1 h
  · exact List.mem_append_left _ (List.mem_flatMap.2 ⟨kind, mem_all kind, hown⟩)
  · exact List.mem_append_right _ hshared

theorem parse_template {kind : Kind} {tree : Option String × List Node} (h : tree ∈ trees kind) :
    Template.parse (Section.ofNodes tree.1 tree.2).template = .ok tree.2 :=
  Template.parse_eq_ok_iff.2 (Template.scan_print (allPlain_allTrees tree (mem_allTrees h)))

end Bundled

/-- The names whose texts a kind binds as they stand, but for those that its sections put between
quotes. -/
def Kind.bareNames : Kind → List String
  | faceSheet => []
  | bodySheet => ["body_type", "bust_feature", "render_type"]
  | outfitSheet =>
    ["fit_mode", "outfit_category", "outfit_color", "outfit_pattern", "outfit_style"]
  | pose => ["pose_preset", "eye_line", "expression", "wind_effect"]
  | sceneBuilder => []
  | background => []
  | decorativeText => ["text_type"]
  | fourPanel => ["position"]
  | styleTransform => ["transform_type"]
  | infographic => ["infographic_style", "output_language"]

namespace Bundled

theorem avoids_of_mem_ownTrees (kind : Kind) : ∀ tree ∈ ownTrees kind,
    ∀ place ∈ Node.quotedPlaces tree.2, place.Avoids kind.bareNames := by
  cases kind <;> decide +kernel

theorem avoids_of_mem_sharedTrees : ∀ tree ∈ sharedTrees,
    ∀ place ∈ Node.quotedPlaces tree.2, ∀ kind ∈ Kind.all, place.Avoids kind.bareNames := by
  decide +kernel

theorem avoids_of_quotes {kind : Kind} {place : Place} (h : Catalog.bundled.Quotes kind place) :
    place.Avoids kind.bareNames := by
  obtain ⟨_, _, _, _, found, hfound, nodes, hparse, hplace⟩ := h
  obtain ⟨tree, htree, rfl⟩ := exists_tree hfound
  cases (parse_template htree).symm.trans hparse
  obtain hown | hshared := List.mem_append.1 htree
  · exact avoids_of_mem_ownTrees kind tree hown place hplace
  · exact avoids_of_mem_sharedTrees tree hshared place hplace kind (mem_all kind)

end Bundled

end PromptSheet
