import PromptSheet.Proofs.OnePass
import PromptSheet.Proofs.RenderingLaws
import PromptSheet.Proofs.Segments
import PromptSheet.Proofs.WrittenTag

/-!
# Inclusions written out

A template that includes others, none of them with parameters, shows what it would show if the trees
of the others stood in it: as many layers of them as inclusions may nest, and nothing in the places
of the inclusions below. The store is that of the place where an inclusion stands, whichever loops
are around it, so the induction on the layers speaks of all stores.
-/

namespace PromptSheet.Template

namespace Rendering

/-- Neither rendering fails, and both leave the same text. They may differ in what they warn of. -/
def SameText (first second : Rendering) : Prop :=
  ∃ content, first.result = .ok content ∧ second.result = .ok content

theorem SameText.ofText (content : String) : SameText (ofText content) (ofText content) :=
  ⟨content, rfl, rfl⟩

theorem SameText.andThen {first second first' second' : Rendering} (h : SameText first first')
    (h' : SameText second second') : SameText (first >> second) (first' >> second') := by
  obtain ⟨content, hfirst, hfirst'⟩ := h
  obtain ⟨content', hsecond, hsecond'⟩ := h'
  exact ⟨content ++ content', result_andThen_of_ok hfirst hsecond,
    result_andThen_of_ok hfirst' hsecond'⟩

theorem isCongruence_sameText : IsCongruence SameText :=
  ⟨SameText.ofText, SameText.andThen⟩

end Rendering

/-! ### Trees in the place of inclusions

A tree that stands for an inclusion is rendered in the same store as the template that the inclusion
would have brought in, as long as the inclusion gives no parameters.
-/

namespace Node

def givesParameters : Node → Bool
  | .inclusion _ (_ :: _) => true
  | _ => false

mutual

/-- The nodes that stand for a node when every inclusion in it gives way to a tree. -/
def replace (body : String → List Node) : Node → List Node
  | .inclusion name _ => body name
  | .condition expression negated first none =>
    [.condition expression negated (replaceAll body first) none]
  | .condition expression negated first (some other) =>
    [.condition expression negated (replaceAll body first) (some (replaceAll body other))]
  | .loop collection inside => [.loop collection (replaceAll body inside)]
  | .text content => [.text content]
  | .slot name => [.slot name]
  | .rawSlot name => [.rawSlot name]
  | .comment content => [.comment content]

def replaceAll (body : String → List Node) : List Node → List Node
  | [] => []
  | node :: rest => replace body node ++ replaceAll body rest

end

theorem inclusionsOf_append (first second : List Node) :
    inclusionsOf (first ++ second) = inclusionsOf first ++ inclusionsOf second := by
  induction first with
  | nil => simp [inclusionsOf]
  | cons node first ih => rw [List.cons_append, inclusionsOf, inclusionsOf, ih, List.append_assoc]

section Replace

variable {body : String → List Node} {incl incl' : Include}

mutual

theorem inclusionsOf_replace (hbody : ∀ name, inclusionsOf (body name) = []) (node : Node) :
    inclusionsOf (replace body node) = [] := by
  match node with
  | .text content => rfl
  | .slot name => rfl
  | .rawSlot name => rfl
  | .comment content => rfl
  | .inclusion name parameters => exact hbody name
  | .loop collection inside =>
      simp [replace, inclusionsOf, inclusions, inclusionsOf_replaceAll hbody inside]
  | .condition expression negated first none =>
      simp [replace, inclusionsOf, inclusions, inclusionsOf_replaceAll hbody first]
  | .condition expression negated first (some other) =>
      simp [replace, inclusionsOf, inclusions, inclusionsOf_replaceAll hbody first,
        inclusionsOf_replaceAll hbody other]

theorem inclusionsOf_replaceAll (hbody : ∀ name, inclusionsOf (body name) = [])
    (nodes : List Node) : inclusionsOf (replaceAll body nodes) = [] := by
  match nodes with
  | [] => rfl
  | node :: rest =>
      rw [replaceAll, inclusionsOf_append, inclusionsOf_replace hbody node,
        inclusionsOf_replaceAll hbody rest, List.append_nil]

end

mutual

/-- If a tree shows what an inclusion shows, it may take its place, wherever that is. -/
theorem sameText_replace
    (hbody : ∀ name store, (incl name [] store).SameText (renderAll incl' (body name) store))
    (node : Node) (h : node.any givesParameters = false) (store : Store) :
    (render incl node store).SameText (renderAll incl' (replace body node) store) := by
  match node with
  | .text content =>
      rw [replace, renderAll_singleton, render, render]
      exact .ofText content
  | .slot name =>
      rw [replace, renderAll_singleton, render, render]
      exact .ofText _
  | .rawSlot name =>
      rw [replace, renderAll_singleton, render, render]
      exact .ofText _
  | .comment content =>
      rw [replace, renderAll_singleton, render, render]
      exact .ofText ""
  | .inclusion name parameters =>
      have hnone : parameters = [] := by
        cases parameters with
        | nil => rfl
        | cons parameter rest => cases h
      rw [hnone, replace, render]
      exact hbody name store
  | .loop collection inside =>
      have hinside : anyOf givesParameters inside = false := h
      rw [replace, renderAll_singleton, render, render]
      cases store.getList? collection with
      | none => exact .ofText ""
      | some items =>
          exact Rendering.isCongruence_sameText.renderItems
            (sameText_replaceAll hbody inside hinside) store items 0
  | .condition expression negated first none =>
      have hfirst : anyOf givesParameters first = false := h
      rw [replace, renderAll_singleton, render, render]
      split
      · exact sameText_replaceAll hbody first hfirst store
      · exact .ofText ""
  | .condition expression negated first (some other) =>
      have hboth : (anyOf givesParameters first || anyOf givesParameters other) = false := h
      obtain ⟨hfirst, hother⟩ := Bool.or_eq_false_iff.1 hboth
      rw [replace, renderAll_singleton, render, render]
      split
      · exact sameText_replaceAll hbody first hfirst store
      · exact sameText_replaceAll hbody other hother store

theorem sameText_replaceAll
    (hbody : ∀ name store, (incl name [] store).SameText (renderAll incl' (body name) store))
    (nodes : List Node) (h : anyOf givesParameters nodes = false) (store : Store) :
    (renderAll incl nodes store).SameText (renderAll incl' (replaceAll body nodes) store) := by
  match nodes with
  | [] =>
      rw [replaceAll, renderAll_nil, renderAll_nil]
      exact .ofText ""
  | node :: rest =>
      rw [anyOf, Bool.or_eq_false_iff] at h
      rw [replaceAll, renderAll_append, renderAll_cons]
      exact (sameText_replace hbody node h.1 store).andThen
        (sameText_replaceAll hbody rest h.2 store)

end

end Replace

end Node

namespace Renderer

/-- A tree without inclusions: its own are written out, and those in what they include, and so on as
many layers deep as there may be. -/
def expand (source : String → Found) : Nat → List Node → List Node
  | 0 => Node.replaceAll fun _ => []
  | layers + 1 => Node.replaceAll fun name =>
    match source name with
    | .source text =>
      match parse text with
      | .ok nodes => expand source layers nodes
      | .error _ => []
    | .missing => [.text (missingRemark name)]
    | .unreadable => [.text (missingRemark name)]

theorem inclusionsOf_expand (source : String → Found) (layers : Nat) :
    ∀ nodes, Node.inclusionsOf (expand source layers nodes) = [] := by
  induction layers with
  | zero =>
      intro nodes
      exact Node.inclusionsOf_replaceAll (fun _ => rfl) nodes
  | succ layers ih =>
      intro nodes
      apply Node.inclusionsOf_replaceAll
      intro name
      cases source name with
      | missing => rfl
      | unreadable => rfl
      | source text =>
          cases hparse : parse text with
          | error e => simp [hparse, Node.inclusionsOf]
          | ok body => simpa [hparse] using ih body

/-- Every text of the source is a template, and none gives parameters to those that it includes. -/
def GivesNoParameters (source : String → Found) : Prop :=
  ∀ name text, source name = .source text →
    ∃ nodes, parse text = .ok nodes ∧ Node.anyOf Node.givesParameters nodes = false

theorem scope_nil (store : Store) : scope store [] = store := rfl

theorem sameText_expand {source : String → Found} (hsource : GivesNoParameters source)
    (limit layers : Nat) :
    ∀ nodes, Node.anyOf Node.givesParameters nodes = false → ∀ store,
      (renderWithin limit source layers nodes store).SameText
        (render {} (expand source layers nodes) store) := by
  induction layers with
  | zero =>
      intro nodes hnodes store
      exact Node.sameText_replaceAll (fun _ _ => ⟨"", rfl, rfl⟩) nodes hnodes store
  | succ layers ih =>
      intro nodes hnodes store
      have hremark : ∀ name, (Node.renderAll (fun _ _ _ => Rendering.empty)
          [.text (missingRemark name)] store).result = .ok (missingRemark name) := by
        intro name
        rw [Node.renderAll_singleton, Node.render]
        rfl
      refine Node.sameText_replaceAll (fun name store => ?_) nodes hnodes store
      rw [included_succ]
      cases hfound : source name with
      | missing => exact ⟨missingRemark name, rfl, hremark name⟩
      | unreadable => exact ⟨missingRemark name, rfl, hremark name⟩
      | source text =>
          obtain ⟨body, hparse, hbody⟩ := hsource name text hfound
          rw [Found.shown_source hparse, scope_nil]
          simp only [hparse]
          exact ih body hbody store

end Renderer

/-- A tag, as it stands in a source, that includes the template of this name without parameters. -/
def IsInclusionOf (name tag : String) : Prop :=
  ∃ inside directive, Slice.IsValid (.tag false inside (.inclusion directive)) ∧
    readDirective directive.toList = (name, []) ∧
      (Slice.tag false inside (.inclusion directive)).source = tag.toList

theorem isInclusionOf_print {name : String} (hname : IsWord name.toList) :
    IsInclusionOf name (print [.inclusion name []]) := by
  have htrimmed : Text.IsTrimmed name.toList := hname.solid.isTrimmed
  have hbraceless : IsBraceless ('>' :: ' ' :: name.toList) := by
    rw [isBraceless_cons, isBraceless_cons]
    exact ⟨by decide, by decide, hname.noBrace⟩
  refine ⟨'>' :: ' ' :: name.toList, name, ⟨isInside_of_isBraceless false hbraceless, ?_⟩, ?_, ?_⟩
  · intro line
    have hfound := Tag.ofContent_inclusion line htrimmed hname.nonempty
    rwa [String.ofList_toList] at hfound
  · have hplain : ParametersPlain [] := nofun
    simpa using readDirective_print hname hplain
  · simp [Slice.source, opener, closer, print, Node.printAll, Node.print, braced]

def Node.ofText (content : String) : List Node :=
  if content = "" then [] else [.text content]

theorem Node.renderAll_ofText (incl : Include) (content : String) (store : Store) :
    Node.renderAll incl (Node.ofText content) store = Rendering.ofText content := by
  unfold Node.ofText
  split
  · next h => rw [Node.renderAll_nil, h]; rfl
  · rw [Node.renderAll_singleton, Node.render]

/-- The slices of a text, which has none if it is empty. -/
def Slice.ofText (content : String) : List Slice :=
  if content = "" then [] else [.text content.toList]

section Around

variable {name tag before after content : String} {inside : List Char} {found : Tag} {ending : Ending}
  {rest : List Slice}

theorem Slice.source_ofText (content : String) :
    (Slice.ofText content).flatMap Slice.source = content.toList := by
  unfold Slice.ofText
  split
  · next h => rw [h]; rfl
  · simp [Slice.source]

theorem Slice.isValid_text (hne : content ≠ "") (hopening : ¬['{', '{'] <:+: content.toList) :
    Slice.IsValid (.text content.toList) :=
  ⟨fun h => hne (String.toList_inj.1 h), hopening⟩

theorem Slice.allValid_ofText (hafter : ¬['{', '{'] <:+: after.toList) :
    Slice.AllValid .complete (Slice.ofText after) := by
  unfold Slice.ofText
  split
  · trivial
  · next hne => exact ⟨isValid_text hne hafter, ⟨by simp, by simp⟩, trivial⟩

theorem Slice.allValid_ofText_append (hbefore : ¬['{', '{'] <:+: before.toList)
    (hlast : before.toList.getLast? ≠ some '{')
    (hrest : Slice.AllValid ending (.tag false inside found :: rest)) :
    Slice.AllValid ending (Slice.ofText before ++ .tag false inside found :: rest) := by
  unfold Slice.ofText
  split
  · exact hrest
  · next hne =>
    refine ⟨isValid_text hne hbefore, ⟨?_, fun _ => hlast⟩, hrest⟩
    rintro next ⟨⟩
    rfl

/-- A text makes a node of its own, unless it is empty. -/
theorem Frames.run_ofText (before : List Char) (content : String) (outer : List Node) :
    Frames.run ⟨outer, []⟩ (Slice.tokensAfter before (Slice.ofText content)) =
      some ⟨outer ++ Node.ofText content, []⟩ := by
  unfold Slice.ofText Node.ofText
  split
  · simp [Slice.tokensAfter]
  · simp [Slice.tokensAfter, Slice.token, Frames.step, Frames.add]

theorem parse_around (htag : IsInclusionOf name tag) (hbefore : ¬['{', '{'] <:+: before.toList)
    (hlast : before.toList.getLast? ≠ some '{') (hafter : ¬['{', '{'] <:+: after.toList) :
    parse (before ++ tag ++ after) =
      .ok (Node.ofText before ++ [.inclusion name []] ++ Node.ofText after) := by
  obtain ⟨inside, directive, htag, hread, hsource⟩ := htag
  set slice := Slice.tag false inside (.inclusion directive) with hslice
  have hvalid : Segmentation.IsValid
      ⟨Slice.ofText before ++ slice :: Slice.ofText after, .complete⟩ :=
    Slice.allValid_ofText_append hbefore hlast ⟨htag, trivial, Slice.allValid_ofText hafter⟩
  have hwhole : Segmentation.source ⟨Slice.ofText before ++ slice :: Slice.ofText after, .complete⟩ =
      (before ++ tag ++ after).toList := by
    simp [Segmentation.source, Segmentation.read, Slice.source_ofText, hsource, Ending.source]
  have hscan := Segmentation.scan_eq hvalid hwhole
  have hstep : ∀ outer start, Frames.step ⟨outer, []⟩ (slice.token start) =
      some ⟨outer ++ [.inclusion name []], []⟩ := by
    intro outer start
    simp [hslice, Slice.token, Frames.step, Node.ofLeaf?, hread, Frames.add]
  refine parse_eq_ok_iff.2 ⟨by rw [hscan]; rfl, ?_⟩
  rw [hscan, Frames.tree?, Segmentation.scanAfter, Slice.tokensAfter_append, Frames.run_append,
    Frames.run_ofText, Slice.tokensAfter, Option.bind_some, Frames.run_cons, hstep,
    Option.bind_some, Frames.run_ofText, Option.bind_some]
  simp [Frames.finish]

namespace Renderer

/-- One layer more puts one more copy of what stands before the tag in front, and one more of what
stands after it behind. -/
theorem result_renderWithin_selfInclusion {source : String → Found}
    (hfound : source name = .source (before ++ tag ++ after)) (htag : IsInclusionOf name tag)
    (hbefore : ¬['{', '{'] <:+: before.toList) (hlast : before.toList.getLast? ≠ some '{')
    (hafter : ¬['{', '{'] <:+: after.toList) (limit layers : Nat) (store : Store) :
    (renderWithin limit source layers [.inclusion name []] store).result =
      .ok (String.join (List.replicate layers before) ++
        String.join (List.replicate layers after)) := by
  have hparse := parse_around htag hbefore hlast hafter
  induction layers with
  | zero =>
      rw [renderWithin, Node.renderAll_singleton, Node.render]
      rfl
  | succ layers ih =>
      have hinner : renderWithin limit source (layers + 1) [.inclusion name []] store =
          renderWithin limit source layers
            (Node.ofText before ++ [.inclusion name []] ++ Node.ofText after) store := by
        rw [renderWithin, Node.renderAll_singleton, Node.render, included_succ, hfound,
          Found.shown_source hparse, scope_nil]
      obtain ⟨incl, hincl⟩ := exists_include_renderWithin limit source layers
      rw [hincl] at ih
      rw [hinner, hincl, Node.renderAll_append, Node.renderAll_append, Node.renderAll_ofText,
        Node.renderAll_ofText]
      have hbehind : List.replicate (layers + 1) after = List.replicate layers after ++ [after] :=
        List.replicate_succ'
      have hleft : (Rendering.ofText before).result = .ok before := rfl
      have hright : (Rendering.ofText after).result = .ok after := rfl
      rw [Rendering.result_andThen_of_ok (Rendering.result_andThen_of_ok hleft ih) hright, hbehind,
        List.replicate_succ, String.join_cons, String.join_append, String.join_cons,
        String.join_nil, String.append_empty]
      simp only [String.append_assoc]

end Renderer

end Around

namespace Renderer

/-- **A template shows what it shows with its inclusions written out**, down to the layer where they
may nest no deeper, and neither fails. A template that includes itself is a case of this: each layer
shows what stands before the tag and what stands after it. -/
theorem render_expand (source : String → Found) (limit : Nat) (store : Store) :
    (GivesNoParameters source → ∀ nodes, Node.anyOf Node.givesParameters nodes = false →
      Node.inclusionsOf (expand source limit nodes) = [] ∧
      ∃ content, (render { source := some source, limit := limit } nodes store).result = .ok content ∧
        (render {} (expand source limit nodes) store).result = .ok content) ∧
    ∀ name tag before after : String, IsInclusionOf name tag →
      source name = .source (before ++ tag ++ after) → ¬['{', '{'] <:+: before.toList →
      before.toList.getLast? ≠ some '{' → ¬['{', '{'] <:+: after.toList →
        (render { source := some source, limit := limit } [.inclusion name []] store).result =
          .ok (String.join (List.replicate limit before) ++
            String.join (List.replicate limit after)) := by
  constructor
  · intro hsource nodes hnodes
    exact ⟨inclusionsOf_expand source limit nodes,
      sameText_expand hsource limit limit nodes hnodes store⟩
  · intro name tag before after htag hfound hbefore hlast hafter
    exact result_renderWithin_selfInclusion hfound htag hbefore hlast hafter limit limit store

def echoes (name : String) : Found :=
  if name = "echo" then .source ("a" ++ print [.inclusion "echo" []] ++ "b") else .missing

theorem isInclusionOf_echo : IsInclusionOf "echo" (print [.inclusion "echo" []]) :=
  isInclusionOf_print (by decide)

theorem givesNoParameters_echoes : GivesNoParameters echoes := by
  intro name text hfound
  unfold echoes at hfound
  split at hfound
  · cases hfound
    exact ⟨_, parse_around isInclusionOf_echo (by decide) (by decide) (by decide), by decide⟩
  · cases hfound

theorem render_expand_echoes :
    GivesNoParameters echoes ∧ IsInclusionOf "echo" (print [.inclusion "echo" []]) ∧
      (∃ content,
        (render { source := some echoes, limit := 2 }
          [.inclusion "echo" [], .condition "flag" true [.inclusion "gone" []] none] {}).result =
            .ok content ∧
        (render {} (expand echoes 2
          [.inclusion "echo" [], .condition "flag" true [.inclusion "gone" []] none]) {}).result =
            .ok content) ∧
      (render { source := some echoes, limit := 3 } [.inclusion "echo" []] {}).result =
        .ok "aaabbb" := by
  refine ⟨givesNoParameters_echoes, isInclusionOf_echo, ?_, ?_⟩
  · exact ((render_expand echoes 2 {}).1 givesNoParameters_echoes _ (by decide)).2
  · exact (render_expand echoes 3 {}).2 "echo" _ "a" "b" isInclusionOf_echo (if_pos rfl) (by decide)
      (by decide) (by decide)

end Renderer

end PromptSheet.Template
