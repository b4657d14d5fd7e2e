import PromptSheet.Proofs.Concatenation
import PromptSheet.Proofs.PrintParse
import PromptSheet.Proofs.ReadableTag

/-!
# Trees that a source can be read as

The pass over the tokens of a source adds to the open blocks only what can stand in a source, so
this holds of the whole tree: each tag holds what a tag can hold, and a text has no two open braces
and ends with one only if the source does. Nothing else is known of such a tree; texts may stand
side by side in it, where a tag between them has left no node.
-/

namespace PromptSheet.Template

namespace Node

mutual

/-- A text which something follows does not end with a brace that would open a tag with it. -/
def IsReadable (followed : Bool) : Node → Prop
  | .text content =>
    content.toList ≠ [] ∧ ¬['{', '{'] <:+: content.toList ∧
      (followed = true → content.toList.getLast? ≠ some '{')
  | .slot name => (Tag.slot name).IsReadable
  | .rawSlot name => (Tag.rawSlot name).IsReadable
  | .comment content => (Tag.comment content).IsReadable
  | .inclusion name parameters => IsReadableDirective name parameters
  | .loop collection body => (Tag.opening .each collection).IsReadable ∧ AllReadable true body
  | .condition expression negated body none =>
    (Tag.opening (conditionBlock negated) expression).IsReadable ∧ AllReadable true body
  | .condition expression negated body (some other) =>
    (Tag.opening (conditionBlock negated) expression).IsReadable ∧ AllReadable true body ∧
      AllReadable true other

def AllReadable (followed : Bool) : List Node → Prop
  | [] => True
  | node :: rest => IsReadable (followed || !rest.isEmpty) node ∧ AllReadable followed rest

end

section Readable

variable {followed : Bool} {node : Node} {nodes first second : List Node}

theorem IsReadable.of_followed (h : node.IsReadable true) (followed : Bool) :
    node.IsReadable followed := by
  cases node with
  | text content => exact ⟨h.1, h.2.1, fun _ => h.2.2 rfl⟩
  | slot | rawSlot | comment | inclusion | loop => exact h
  | condition expression negated body otherwise => cases otherwise <;> exact h

theorem allReadable_append (hfirst : AllReadable true first)
    (hsecond : AllReadable followed second) : AllReadable followed (first ++ second) := by
  induction first with
  | nil => exact hsecond
  | cons node rest ih =>
      obtain ⟨hnode, hrest⟩ := hfirst
      rw [Bool.true_or] at hnode
      exact ⟨hnode.of_followed _, ih hrest⟩

theorem allReadable_singleton (h : node.IsReadable followed) : AllReadable followed [node] :=
  ⟨by simpa using h, trivial⟩

theorem AllReadable.of_followed (h : AllReadable true nodes) (followed : Bool) :
    AllReadable followed nodes := by
  rw [← List.append_nil nodes]
  exact allReadable_append h trivial

end Readable

end Node

def Token.IsReadable : Token → Prop
  | .text content => (Node.text content).IsReadable true
  | .tag found _ => found.IsReadable

def Frame.IsReadable : Frame → Prop
  | .condition expression negated body otherwise =>
    (Tag.opening (Node.conditionBlock negated) expression).IsReadable ∧
      Node.AllReadable true body ∧ ∀ other ∈ otherwise, Node.AllReadable true other
  | .loop collection body =>
    (Tag.opening .each collection).IsReadable ∧ Node.AllReadable true body

namespace Frame

variable {frame : Frame} {nodes : List Node}

theorem IsReadable.add (h : frame.IsReadable) (hnodes : Node.AllReadable true nodes) :
    (frame.add nodes).IsReadable := by
  cases frame with
  | condition expression negated body otherwise =>
      obtain ⟨hopening, hbody, hother⟩ := h
      cases otherwise with
      | none => exact ⟨hopening, Node.allReadable_append hbody hnodes, hother⟩
      | some other =>
          refine ⟨hopening, hbody, ?_⟩
          rintro _ ⟨⟩
          exact Node.allReadable_append (hother other rfl) hnodes
  | loop collection body => exact ⟨h.1, Node.allReadable_append h.2 hnodes⟩

theorem IsReadable.node (h : frame.IsReadable) : frame.node.IsReadable true := by
  cases frame with
  | condition expression negated body otherwise =>
      cases otherwise with
      | none => exact ⟨h.1, h.2.1⟩
      | some other => exact ⟨h.1, h.2.1, h.2.2 other rfl⟩
  | loop collection body => exact h

end Frame

namespace Frames

structure IsReadable (frames : Frames) : Prop where
  outer : Node.AllReadable true frames.outer
  opened : ∀ frame ∈ frames.opened, frame.IsReadable

variable {frames next : Frames} {frame : Frame} {nodes : List Node} {token : Token}

theorem IsReadable.add (h : frames.IsReadable) (hnodes : Node.AllReadable true nodes) :
    (frames.add nodes).IsReadable := by
  obtain ⟨outer, _ | ⟨innermost, others⟩⟩ := frames
  · exact ⟨Node.allReadable_append h.outer hnodes, h.opened⟩
  · obtain ⟨hinnermost, hothers⟩ := List.forall_mem_cons.1 h.opened
    exact ⟨h.outer, List.forall_mem_cons.2 ⟨hinnermost.add hnodes, hothers⟩⟩

theorem IsReadable.push (h : frames.IsReadable) (hframe : frame.IsReadable) :
    (frames.push frame).IsReadable :=
  ⟨h.outer, List.forall_mem_cons.2 ⟨hframe, h.opened⟩⟩

theorem IsReadable.close {family : Frame → Bool} (h : frames.IsReadable)
    (hclose : frames.close family = some next) : next.IsReadable := by
  obtain ⟨outer, _ | ⟨innermost, others⟩⟩ := frames
  · cases hclose
    exact h
  · simp only [Frames.close] at hclose
    by_cases hinnermost : family innermost = true
    · rw [if_pos hinnermost] at hclose
      cases hclose
      obtain ⟨hframe, hothers⟩ := List.forall_mem_cons.1 h.opened
      have hbelow : IsReadable { outer, opened := others } := ⟨h.outer, hothers⟩
      exact hbelow.add (Node.allReadable_singleton hframe.node)
    · rw [if_neg hinnermost] at hclose
      split at hclose
      · cases hclose
      · cases hclose
        exact h

theorem IsReadable.otherwise (h : frames.IsReadable) (hotherwise : frames.otherwise = some next) :
    next.IsReadable := by
  rw [Frames.otherwise] at hotherwise
  split at hotherwise
  · cases hotherwise
    exact h
  · split at hotherwise
    · cases hotherwise
      exact h
    · split at hotherwise
      · next expression negated body others hopened =>
        cases hotherwise
        have hframes := h.opened
        rw [hopened] at hframes
        obtain ⟨⟨hopening, hbody, _⟩, hothers⟩ := List.forall_mem_cons.1 hframes
        refine ⟨h.outer, List.forall_mem_cons.2 ⟨⟨hopening, hbody, ?_⟩, hothers⟩⟩
        rintro _ ⟨⟩
        trivial
      · cases hotherwise

theorem allReadable_ofLeaf? {tag : Tag} (h : tag.IsReadable) :
    Node.AllReadable true (Node.ofLeaf? tag).toList := by
  cases tag with
  | inclusion directive =>
      exact Node.allReadable_singleton
        (isReadableDirective_readDirective h.1 h.2.1 h.2.2)
  | slot | rawSlot | comment => exact Node.allReadable_singleton h
  | opening | otherwise | closing => trivial

/-- A readable token leaves readable frames. -/
theorem IsReadable.step (h : frames.IsReadable) (htoken : token.IsReadable)
    (hstep : frames.step token = some next) : next.IsReadable := by
  match token with
  | .text content =>
      cases hstep
      exact h.add (Node.allReadable_singleton htoken)
  | .tag (.opening .each collection) start =>
      cases hstep
      exact h.push ⟨htoken, trivial⟩
  | .tag (.opening .when expression) start | .tag (.opening .unless expression) start =>
      cases hstep
      exact h.push ⟨htoken, trivial, nofun⟩
  | .tag .otherwise start => exact h.otherwise hstep
  | .tag (.closing name) start =>
      simp only [Frames.step] at hstep
      split at hstep
      · exact h.close hstep
      · split at hstep
        · exact h.close hstep
        · cases hstep
          exact h
  | .tag (.comment content) start | .tag (.rawSlot name) start | .tag (.slot name) start
  | .tag (.inclusion directive) start =>
      cases hstep
      exact h.add (allReadable_ofLeaf? htoken)

theorem opened_add_eq_nil (h : (frames.add nodes).opened = []) :
    frames.opened = [] ∧ (frames.add nodes).outer = frames.outer ++ nodes := by
  obtain ⟨outer, _ | ⟨innermost, others⟩⟩ := frames
  · exact ⟨rfl, rfl⟩
  · cases h

/-- Only the last token of a source can be a text that nothing follows, and it then stands outside
of all blocks. -/
theorem allReadable_of_run {slices : List Slice} {before : List Char}
    (hvalid : Slice.AllValid .complete slices) (h : frames.IsReadable)
    (hrun : frames.run (Slice.tokensAfter before slices) = some next)
    (hfinish : next.finish = some nodes) : Node.AllReadable false nodes := by
  have houter : ∀ frames : Frames, frames.finish = some nodes →
      frames.opened = [] ∧ frames.outer = nodes := by
    intro frames hfinish
    simpa [Frames.finish] using hfinish
  induction slices generalizing frames before with
  | nil =>
      cases hrun
      obtain ⟨_, rfl⟩ := houter _ hfinish
      exact h.outer.of_followed false
  | cons slice rest ih =>
      obtain ⟨hslice, hfollow, hrest⟩ := hvalid
      rw [Slice.tokensAfter, run_cons] at hrun
      obtain ⟨middle, hstep, hrun⟩ := Option.bind_eq_some_iff.1 hrun
      cases slice with
      | tag triple inside found =>
          have htag : Token.IsReadable (.tag found (.after before)) :=
            Tag.isReadable_of_ofInside hslice.1 (hslice.2 1)
          exact ih hrest (h.step htag hstep) hrun
      | text content =>
          have htext : ∀ followed, (followed = true → content.getLast? ≠ some '{') →
              (Node.text (String.ofList content)).IsReadable followed := by
            intro followed hlast
            simp only [Node.IsReadable, String.toList_ofList]
            exact ⟨hslice.1, hslice.2, hlast⟩
          cases rest with
          | cons follower rest =>
              have htoken : Token.IsReadable (.text (String.ofList content)) :=
                htext true fun _ => hfollow.2 (.inl (by simp))
              exact ih hrest (h.step htoken hstep) hrun
          | nil =>
              cases hstep
              cases hrun
              obtain ⟨hopened, rfl⟩ := houter _ hfinish
              rw [(opened_add_eq_nil hopened).2]
              exact Node.allReadable_append h.outer
                (Node.allReadable_singleton (htext false (by simp)))

end Frames

theorem allReadable_of_parse {source : String} {nodes : List Node} (h : parse source = .ok nodes) :
    Node.AllReadable false nodes := by
  obtain ⟨hfailure, htree⟩ := parse_eq_ok_iff.1 h
  obtain ⟨slices, hvalid, _, htokens⟩ := exists_slices hfailure
  rw [htokens, Frames.tree?] at htree
  obtain ⟨next, hrun, hfinish⟩ := Option.bind_eq_some_iff.1 htree
  have hstart : Frames.IsReadable {} := ⟨trivial, List.forall_mem_nil _⟩
  exact Frames.allReadable_of_run hvalid hstart hrun hfinish

end PromptSheet.Template
