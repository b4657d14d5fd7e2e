import Mathlib.Data.Option.Basic
import PromptSheet.Proofs.JoinedTexts

/-!
# The canonical form of a template

Every tree that a source can be read as is written back with its tags in canonical form, and what is
written is read as the same tree, except that texts side by side have become one. The pieces which
the written text falls into are given by the tree, and the pass takes them for its nodes.
-/

namespace PromptSheet.Template

namespace Node

mutual

def write : Node → List Char
  | .text content => content.toList
  | .slot name => (Tag.slot name).canonical
  | .rawSlot name => (Tag.rawSlot name).canonical
  | .comment content => (Tag.comment content).canonical
  | .inclusion name parameters =>
    (Tag.inclusion (String.ofList (writeDirective name parameters))).canonical
  | .loop collection body =>
    (Tag.opening .each collection).canonical ++ writeAll body ++ (Block.closing .each).canonical
  | .condition expression negated body none =>
    (Tag.opening (conditionBlock negated) expression).canonical ++ writeAll body ++
      (conditionBlock negated).closing.canonical
  | .condition expression negated body (some other) =>
    (Tag.opening (conditionBlock negated) expression).canonical ++ writeAll body ++
      Tag.otherwise.canonical ++ writeAll other ++ (conditionBlock negated).closing.canonical

def writeAll : List Node → List Char
  | [] => []
  | node :: rest => write node ++ writeAll rest

end

end Node

/-- The text of a tree with all tags in canonical form. -/
def canonical (nodes : List Node) : String :=
  String.ofList (Node.writeAll nodes)

namespace Node

theorem writeAll_consJoined (node : Node) (rest : List Node) :
    writeAll (consJoined node rest) = write node ++ writeAll rest := by
  obtain ⟨h, _⟩ | ⟨first, second, more, rfl, rfl, h⟩ := consJoined_cases node rest
  · rw [h, writeAll]
  · rw [h]
    simp [writeAll, write]

mutual

theorem write_joinInside (node : Node) : write (joinInside node) = write node := by
  match node with
  | .condition expression negated body none =>
      simp only [joinInside, write, writeAll_joinTexts body]
  | .condition expression negated body (some other) =>
      simp only [joinInside, write, writeAll_joinTexts body, writeAll_joinTexts other]
  | .loop collection body => simp only [joinInside, write, writeAll_joinTexts body]
  | .text _ | .slot _ | .rawSlot _ | .inclusion _ _ | .comment _ => rw [joinInside]

/-- Texts side by side are written like the text of both. -/
theorem writeAll_joinTexts (nodes : List Node) : writeAll (joinTexts nodes) = writeAll nodes := by
  match nodes with
  | [] => rw [joinTexts]
  | node :: rest =>
      rw [joinTexts, writeAll_consJoined, write_joinInside node, writeAll_joinTexts rest, writeAll]

end

mutual

def slices : Node → List Slice
  | .text content => [.text content.toList]
  | .slot name => [(Tag.slot name).slice]
  | .rawSlot name => [(Tag.rawSlot name).slice]
  | .comment content => [(Tag.comment content).slice]
  | .inclusion name parameters =>
    [(Tag.inclusion (String.ofList (writeDirective name parameters))).slice]
  | .loop collection body =>
    (Tag.opening .each collection).slice :: (slicesAll body ++ [(Block.closing .each).slice])
  | .condition expression negated body none =>
    (Tag.opening (conditionBlock negated) expression).slice ::
      (slicesAll body ++ [(conditionBlock negated).closing.slice])
  | .condition expression negated body (some other) =>
    (Tag.opening (conditionBlock negated) expression).slice ::
      (slicesAll body ++ Tag.otherwise.slice ::
        (slicesAll other ++ [(conditionBlock negated).closing.slice]))

def slicesAll : List Node → List Slice
  | [] => []
  | node :: rest => slices node ++ slicesAll rest

end

mutual

theorem flatMap_source_slices (node : Node) :
    (slices node).flatMap Slice.source = write node := by
  match node with
  | .condition expression negated body none =>
      simp [slices, write, flatMap_source_slicesAll body, Tag.source_slice]
  | .condition expression negated body (some other) =>
      simp [slices, write, flatMap_source_slicesAll body, flatMap_source_slicesAll other,
        Tag.source_slice]
  | .loop collection body =>
      simp [slices, write, flatMap_source_slicesAll body, Tag.source_slice]
  | .text _ => simp [slices, write, Slice.source]
  | .slot _ | .rawSlot _ | .inclusion _ _ | .comment _ => simp [slices, write, Tag.source_slice]

theorem flatMap_source_slicesAll (nodes : List Node) :
    (slicesAll nodes).flatMap Slice.source = writeAll nodes := by
  match nodes with
  | [] => rfl
  | node :: rest =>
      rw [slicesAll, List.flatMap_append, flatMap_source_slices node, flatMap_source_slicesAll rest,
        writeAll]

end

theorem isText_of_head?_slices {node : Node} (h : node.isText = false) :
    ∀ first ∈ (slices node).head?, first.isText = false := by
  cases node with
  | text content => cases h
  | condition expression negated body otherwise =>
      cases otherwise <;>
      · rintro _ ⟨⟩
        rfl
  | slot | rawSlot | loop | inclusion | comment =>
      rintro _ ⟨⟩
      rfl

theorem slices_ne_nil (node : Node) : slices node ≠ [] := by
  cases node with
  | condition expression negated body otherwise => cases otherwise <;> simp [slices]
  | text | slot | rawSlot | loop | inclusion | comment => simp [slices]

theorem isText_of_head?_slicesAll {nodes : List Node} {after : List Slice}
    (hnodes : ∀ next ∈ nodes.head?, next.isText = false)
    (hafter : ∀ next ∈ after.head?, next.isText = false) :
    ∀ first ∈ (slicesAll nodes ++ after).head?, first.isText = false := by
  cases nodes with
  | nil => exact hafter
  | cons node rest =>
      rw [slicesAll, List.append_assoc, List.head?_append,
        Option.or_of_isSome (by simpa using slices_ne_nil node)]
      exact isText_of_head?_slices (hnodes node rfl)

theorem allValid_tag {tag : Tag} {after : List Slice} (htag : tag.IsReadable)
    (hclosing : ∀ name, tag = .closing name → ∃ block : Block, tag = block.closing)
    (hafter : Slice.AllValid .complete after) : Slice.AllValid .complete (tag.slice :: after) :=
  ⟨Tag.isValid_slice htag hclosing, trivial, hafter⟩

theorem allValid_closing (block : Block) {after : List Slice}
    (hafter : Slice.AllValid .complete after) :
    Slice.AllValid .complete (block.closing.slice :: after) :=
  ⟨Tag.isValid_slice_closing block, trivial, hafter⟩

mutual

/-- Once texts are joined, the pieces of a readable tree are what its written form falls into. -/
theorem allValid_slices (node : Node) (followed : Bool) (h : node.IsReadable followed)
    (after : List Slice) (hafter : Slice.AllValid .complete after)
    (happart : node.isText = true → ∀ next ∈ after.head?, next.isText = false)
    (hfollowed : after ≠ [] → followed = true) :
    Slice.AllValid .complete (slices (joinInside node) ++ after) := by
  match node with
  | .text content =>
      refine ⟨⟨h.1, h.2.1⟩, ⟨happart rfl, fun hmore => h.2.2 (hfollowed ?_)⟩, hafter⟩
      exact hmore.resolve_right (absurd rfl)
  | .slot name | .rawSlot name | .comment content => exact allValid_tag h nofun hafter
  | .inclusion name parameters => exact allValid_tag (isReadable_inclusion h) nofun hafter
  | .loop collection body =>
      have hbody := allValid_slicesAll body true h.2 _ (allValid_closing .each hafter)
        (by rintro _ ⟨⟩; rfl) fun _ => rfl
      simp only [joinInside, slices, List.cons_append, List.append_assoc, List.nil_append]
      exact allValid_tag h.1 nofun hbody
  | .condition expression negated body none =>
      have hbody := allValid_slicesAll body true h.2 _
        (allValid_closing (conditionBlock negated) hafter) (by rintro _ ⟨⟩; rfl) fun _ => rfl
      simp only [joinInside, slices, List.cons_append, List.append_assoc, List.nil_append]
      exact allValid_tag h.1 nofun hbody
  | .condition expression negated body (some other) =>
      have hother := allValid_slicesAll other true h.2.2 _
        (allValid_closing (conditionBlock negated) hafter) (by rintro _ ⟨⟩; rfl) fun _ => rfl
      have hturn : Slice.AllValid .complete (Tag.otherwise.slice :: _) :=
        allValid_tag trivial nofun hother
      have hbody := allValid_slicesAll body true h.2.1 _ hturn (by rintro _ ⟨⟩; rfl) fun _ => rfl
      simp only [joinInside, slices, List.cons_append, List.append_assoc, List.nil_append]
      exact allValid_tag h.1 nofun hbody

theorem allValid_slicesAll (nodes : List Node) (followed : Bool) (h : AllReadable followed nodes)
    (after : List Slice) (hafter : Slice.AllValid .complete after)
    (happart : ∀ next ∈ after.head?, next.isText = false)
    (hfollowed : after ≠ [] → followed = true) :
    Slice.AllValid .complete (slicesAll (joinTexts nodes) ++ after) := by
  match nodes with
  | [] => exact hafter
  | node :: rest =>
      have hrest := allValid_slicesAll rest followed h.2 after hafter happart hfollowed
      obtain ⟨hcons, hnext⟩ | ⟨first, second, more, hnode, hmore, hcons⟩ :=
        consJoined_cases (joinInside node) (joinTexts rest)
      · rw [joinTexts, hcons, slicesAll, List.append_assoc]
        rw [isText_joinInside] at hnext
        refine allValid_slices node _ h.1 _ hrest
          (fun htext => isText_of_head?_slicesAll (hnext htext) happart) fun hne => ?_
        cases rest with
        | nil => simpa using hfollowed hne
        | cons other others => simp
      · rw [joinTexts, hcons]
        rw [hmore] at hrest
        have hfirst := isReadable_joinInside node _ h.1
        rw [hnode] at hfirst
        have hlast : first.toList.getLast? ≠ some '{' := by
          refine hfirst.2.2 ?_
          cases rest with
          | nil => cases hmore
          | cons other others => simp
        have halone : Slice.AllValid .complete ([] ++ [.text first.toList]) :=
          ⟨⟨hfirst.1, hfirst.2.1⟩, ⟨by simp, by simp⟩, trivial⟩
        have hboth := Slice.allValid_join halone hrest
          (not_doubled_append hfirst.2.1 hrest.1.2 fun hseam => hlast hseam.1)
        rwa [← String.toList_append] at hboth

end

mutual

/-- The pass takes the pieces of a node for the node. -/
theorem run_slices (node : Node) (followed : Bool) (h : node.IsReadable followed)
    (before : List Char) (frames : Frames) :
    frames.run (Slice.tokensAfter before (slices node)) = some (frames.add [node]) := by
  match node with
  | .text content =>
      show some (frames.add [.text (String.ofList content.toList)]) = _
      rw [String.ofList_toList]
  | .slot name | .rawSlot name | .comment content => rfl
  | .inclusion name parameters =>
      have hread := readDirective_writeDirective h
      simp [slices, Slice.tokensAfter, Tag.slice, Slice.token, Frames.step, ofLeaf?, hread]
  | .loop collection body =>
      have hinside := run_slicesAll body true h.2
      have hopen : ∀ start, frames.step (.tag (.opening .each collection) start) =
          some (frames.push (.loop collection [])) := fun _ => rfl
      have hclose : ∀ start, (frames.push (.loop collection body)).step
          (.tag (Block.closing .each) start) = some (frames.add [.loop collection body]) :=
        fun _ => rfl
      simp [slices, Slice.tokensAfter, Slice.tokensAfter_append, Frames.run_append, Tag.slice,
        Slice.token, hopen, hinside, hclose, Frame.add]
  | .condition expression negated body none =>
      have hinside := run_slicesAll body true h.2
      have hopen := step_opening_conditionBlock frames expression negated
      have hcondition : (Frame.condition expression negated body none).isCondition = true := rfl
      have hclose := step_closing_conditionBlock frames negated hcondition
      simp [slices, Slice.tokensAfter, Slice.tokensAfter_append, Frames.run_append, Tag.slice,
        Slice.token, Block.closing, hopen, hinside, hclose, Frame.add, Frame.node]
  | .condition expression negated body (some other) =>
      have hinside := run_slicesAll body true h.2.1
      have hturn : ∀ start, (frames.push (.condition expression negated body none)).step
          (.tag .otherwise start) =
            some (frames.push (.condition expression negated body (some []))) :=
        fun _ => Frames.otherwise_push frames expression negated body
      have hsecond := run_slicesAll other true h.2.2
      have hopen := step_opening_conditionBlock frames expression negated
      have hcondition : (Frame.condition expression negated body (some other)).isCondition = true :=
        rfl
      have hclose := step_closing_conditionBlock frames negated hcondition
      simp [slices, Slice.tokensAfter, Slice.tokensAfter_append, Frames.run_append, Tag.slice,
        Slice.token, Block.closing, hopen, hinside, hturn, hsecond, hclose, Frame.add, Frame.node]

theorem run_slicesAll (nodes : List Node) (followed : Bool) (h : AllReadable followed nodes)
    (before : List Char) (frames : Frames) :
    frames.run (Slice.tokensAfter before (slicesAll nodes)) = some (frames.add nodes) := by
  match nodes with
  | [] => rw [Frames.add_nil]; rfl
  | node :: rest =>
      rw [slicesAll, Slice.tokensAfter_append, Frames.run_append, run_slices node _ h.1]
      simp only [Option.bind_some]
      rw [run_slicesAll rest followed h.2, Frames.add_add]
      rfl

end

end Node

/-- **Whatever was read can be written back.** The canonical form of a template is read as its tree
with texts joined, and so shows the same with every renderer and store. -/
theorem parse_canonical (source : String) (nodes : List Node) (h : parse source = .ok nodes) :
    parse (canonical nodes) = .ok (Node.joinTexts nodes) ∧
      ∀ (renderer : Renderer) (store : Store),
        renderer.renderText (canonical nodes) store = renderer.renderText source store := by
  have hreadable := allReadable_of_parse h
  have hjoined := Node.allReadable_joinTexts nodes false hreadable
  have hvalid : Segmentation.IsValid ⟨Node.slicesAll (Node.joinTexts nodes), .complete⟩ := by
    have hslices := Node.allValid_slicesAll nodes false hreadable [] trivial (by simp) (by simp)
    rwa [List.append_nil] at hslices
  have hsource : Segmentation.source ⟨Node.slicesAll (Node.joinTexts nodes), .complete⟩ =
      (canonical nodes).toList := by
    rw [Segmentation.source, Segmentation.read, Node.flatMap_source_slicesAll,
      Node.writeAll_joinTexts, canonical, String.toList_ofList]
    exact List.append_nil _
  have hparse : parse (canonical nodes) = .ok (Node.joinTexts nodes) := by
    rw [parse_eq_ok_iff, Segmentation.scan_eq hvalid hsource]
    refine ⟨rfl, ?_⟩
    rw [Segmentation.scanAfter, Frames.tree?, Node.run_slicesAll _ false hjoined]
    rfl
  refine ⟨hparse, fun renderer store => ?_⟩
  obtain ⟨incl, hincl⟩ := renderer.exists_include
  rw [Renderer.renderText, Renderer.renderText, hparse, h]
  simp only [hincl, Node.renderAll_joinTexts]

/-- A text cut in two by a tag that closes nothing, values with quotes and braces in them, and an
open brace at the end. -/
def unevenForms : String :=
  "a\x7b\x7b/x\x7d\x7db\x7b\x7b> p k='\"' y l=m'\x7d \x7d\x7d\x7b\x7b#unless e\x7d\x7d" ++
    "\x7b\x7b \x7bc\x7d \x7d\x7d\x7b\x7belse\x7d\x7d\x7b\x7b/if\x7d\x7d\x7b\x7b#q\x7d\x7d\x7b"

def unevenTree : List Node :=
  [.text "a", .text "b", .inclusion "p" [("k", "\""), ("l", "m'\x7d")],
    .condition "e" true [.rawSlot "c"] (some []), .slot "#q", .text "\x7b"]

theorem parse_canonical_unevenForms :
    parse unevenForms = .ok unevenTree ∧
      canonical unevenTree =
        "ab\x7b\x7b> p k='\"' l=\"m'\x7d\" \x7d\x7d\x7b\x7b#unless e \x7d\x7d" ++
          "\x7b\x7b\x7b c \x7d\x7d\x7d\x7b\x7belse \x7d\x7d\x7b\x7b/unless\x7d\x7d" ++
          "\x7b\x7b #q \x7d\x7d\x7b" ∧
      parse (canonical unevenTree) = .ok (.text "ab" :: unevenTree.drop 2) := by
  have hparse : parse unevenForms = .ok unevenTree := by decide +kernel
  exact ⟨hparse, by decide, (parse_canonical unevenForms unevenTree hparse).1⟩

end PromptSheet.Template
