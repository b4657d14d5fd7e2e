import PromptSheet.Proofs.OpenBlocks
import PromptSheet.Proofs.Results

/-!
# Cutting out blocks and reading in one pass

The reader of templates cuts each block out of the token sequence by counting and then reads its
inside again, at every depth anew. Here it is compared with the pass that looks at every token once:
both accept the same sequences and make the same trees of them.
-/

namespace PromptSheet.Template

namespace Node

variable {block : Block} {argument : String} {start : Position} {rest inside first after : List Token}

theorem ofTokens_text (content : String) (rest : List Token) :
    ofTokens (.text content :: rest) = (ofTokens rest).map ([.text content] ++ ·) := by
  rw [ofTokens]
  cases ofTokens rest <;> rfl

theorem ofTokens_unclosed_loop (h : Token.cutAtEnd (.loop, 0) rest = none) :
    ofTokens (.tag (.opening .each argument) start :: rest) =
      .error (.unclosedBlock .each start.line) := by
  rw [ofTokens]
  split
  · rfl
  · next hsome => cases h.symm.trans hsome

theorem ofTokens_loop (h : Token.cutAtEnd (.loop, 0) rest = some (inside, after)) :
    ofTokens (.tag (.opening .each argument) start :: rest) =
      (ofTokens inside).bind fun body =>
        (ofTokens after).map ([.loop argument body] ++ ·) := by
  rw [ofTokens]
  split
  · next hnone => cases h.symm.trans hnone
  · next hsome =>
    cases h.symm.trans hsome
    cases ofTokens inside <;> cases ofTokens after <;> rfl

theorem ofTokens_unclosed_condition (hblock : block ≠ .each)
    (h : Token.cutAtEnd (.condition, 0) rest = none) :
    ofTokens (.tag (.opening block argument) start :: rest) =
      .error (.unclosedBlock block start.line) := by
  rw [ofTokens]
  · split
    · rfl
    · next hsome => cases h.symm.trans hsome
  · exact hblock

theorem ofTokens_condition (hblock : block ≠ .each)
    (h : Token.cutAtEnd (.condition, 0) rest = some (inside, after))
    (hinside : Token.cutAtOtherwise 0 inside = (inside, none)) :
    ofTokens (.tag (.opening block argument) start :: rest) =
      (ofTokens inside).bind fun body =>
        (ofTokens after).map ([.condition argument (block = .unless) body none] ++ ·) := by
  rw [ofTokens]
  · split
    · next hnone => cases h.symm.trans hnone
    · next hsome =>
      cases h.symm.trans hsome
      rw [show (Token.cutAtOtherwise 0 inside).1 = inside by rw [hinside]]
      cases ofTokens inside with
      | error => rfl
      | ok body =>
          simp only [bind, Except.bind]
          split
          · cases ofTokens after <;> rfl
          · next hother =>
            rw [hinside] at hother
            cases hother
  · exact hblock

theorem ofTokens_either {other : List Token} (hblock : block ≠ .each)
    (h : Token.cutAtEnd (.condition, 0) rest = some (inside, after))
    (hinside : Token.cutAtOtherwise 0 inside = (first, some other)) :
    ofTokens (.tag (.opening block argument) start :: rest) =
      (ofTokens first).bind fun body => (ofTokens other).bind fun otherwise =>
        (ofTokens after).map ([.condition argument (block = .unless) body (some otherwise)] ++ ·) := by
  rw [ofTokens]
  · split
    · next hnone => cases h.symm.trans hnone
    · next hsome =>
      cases h.symm.trans hsome
      rw [show (Token.cutAtOtherwise 0 inside).1 = first by rw [hinside]]
      cases ofTokens first with
      | error => rfl
      | ok body =>
          simp only [bind, Except.bind]
          split
          · next hother =>
            rw [hinside] at hother
            cases hother
          · next hother =>
            rw [hinside] at hother
            cases hother
            cases ofTokens other <;> cases ofTokens after <;> rfl
  · exact hblock

theorem ofTokens_tag {tag : Tag} (h : ∀ block argument, tag ≠ .opening block argument) :
    ofTokens (.tag tag start :: rest) =
      (ofTokens rest).map ((ofLeaf? tag).toList ++ ·) := by
  rw [ofTokens]
  · cases ofTokens rest <;> rfl
  · exact h _
  · exact h

end Node

/-! ### The pass over a slice

A slice that reads as nodes adds them to the innermost block and leaves the others as they are. From
one that does not read, the pass comes out with a block more than it had, or not at all.
-/

namespace Frames

variable {frames next : Frames} {frame : Frame} {first second rest inside after : List Token}
  {opening close : Token}

/-- What the pass does with a slice that reads as this result: it adds the nodes, or a block stays
open or is in the way. -/
def Reads (frames : Frames) (tokens : List Token) : Except ParseError (List Node) → Prop
  | .ok nodes => frames.run tokens = some (frames.add nodes)
  | .error _ =>
    ∀ next, frames.run tokens = some next → frames.waiting.length < next.waiting.length

theorem Reads.append {made : List Node} {result : Except ParseError (List Node)}
    (hrun : frames.run first = some (frames.add made)) (h : (frames.add made).Reads second result) :
    frames.Reads (first ++ second) (result.map (made ++ ·)) := by
  cases result with
  | error e =>
      intro next hnext
      rw [run_append, hrun] at hnext
      simpa using h next hnext
  | ok nodes =>
      have hsecond : (frames.add made).run second = some ((frames.add made).add nodes) := h
      show frames.run (first ++ second) = some (frames.add (made ++ nodes))
      rw [run_append, hrun, ← add_add]
      exact hsecond

theorem Reads.of_run_eq_none {e : ParseError} (second : List Token) (h : frames.run first = none) :
    frames.Reads (first ++ second) (.error e) := by
  intro next hnext
  rw [run_append, h] at hnext
  cases hnext

theorem Reads.of_unclosed (frame : Frame) {e : ParseError}
    (hopen : frames.step opening = some (frames.push frame))
    (h : Token.cutAtEnd (frame.waiting, 0) rest = none) :
    frames.Reads (opening :: rest) (.error e) := by
  intro next hnext
  rw [run_cons, hopen] at hnext
  obtain ⟨⟨last, depth⟩, hcount⟩ := Token.run_of_cutAtEnd_eq_none h
  obtain ⟨front, hfront, _⟩ := waiting_run_push hcount hnext
  rw [hfront, List.length_append, List.length_cons]
  omega

theorem exists_family {waiting : Waiting} {name : String}
    (h : waiting.closes (.closing name) = true) :
    ∃ family : Frame → Bool,
      (∀ frame, family frame = (frame.waiting.isCondition == waiting.isCondition)) ∧
      ∀ (frames : Frames) (start : Position),
        frames.step (.tag (.closing name) start) = frames.close family := by
  cases hwaiting : waiting.isCondition with
  | true =>
      have hname : name = "if" ∨ name = "unless" := by
        simpa [Waiting.closes, hwaiting, Tag.closesCondition] using h
      refine ⟨Frame.isCondition, fun frame => ?_, fun frames start => ?_⟩
      · rw [frame.isCondition_waiting, beq_true]
      · rw [step, if_pos hname]
  | false =>
      have hname : name = "each" := by
        simpa [Waiting.closes, hwaiting, Tag.closesLoop] using h
      subst hname
      refine ⟨Frame.isLoop, fun frame => ?_, fun frames start => rfl⟩
      rw [frame.isCondition_waiting, frame.isLoop_eq, beq_false]

theorem step_close_push (h : Waiting.step (frame.waiting, 0) close = none) (frames : Frames) :
    (frames.push frame).step close = some (frames.add [frame.node]) := by
  obtain ⟨name, start, rfl, hcloses, _⟩ := Waiting.exists_closing_of_step_eq_none h
  obtain ⟨family, hfamily, hstep⟩ := exists_family hcloses
  rw [hstep]
  exact close_push frames (by rw [hfamily, beq_self_eq_true])

theorem step_close_of_blocked {front below : List Waiting} {waiting : Waiting}
    (h : Waiting.step (waiting, 0) close = none) (hopened : frames.waiting = front ++ waiting :: below)
    (hfront : front ≠ []) (hzero : waiting.depthIn front = 0) : frames.step close = none := by
  obtain ⟨name, start, rfl, hcloses, _⟩ := Waiting.exists_closing_of_step_eq_none h
  obtain ⟨family, hfamily, hstep⟩ := exists_family hcloses
  rw [hstep]
  exact close_of_blocked hfamily hopened hfront hzero

/-- A slice that is no template on its own leaves a block in the way of the tag that ends it. -/
theorem run_eq_none_of_error {e : ParseError}
    (hread : (frames.push frame).Reads inside (.error e))
    (hcount : Waiting.run (frame.waiting, 0) inside = some (frame.waiting, 0))
    (hblocked : ∀ (next : Frames) (front : List Waiting),
      next.waiting = front ++ frame.waiting :: frames.waiting → front ≠ [] →
        frame.waiting.depthIn front = 0 → next.step close = none) :
    (frames.push frame).run (inside ++ [close]) = none := by
  rw [run_append]
  cases hrun : (frames.push frame).run inside with
  | none => rfl
  | some next =>
      obtain ⟨front, hopened, hzero⟩ := waiting_run_push hcount hrun
      have hlonger := hread next hrun
      have hfront : front ≠ [] := by
        rintro rfl
        simp [hopened] at hlonger
      show (next.step close).bind _ = none
      rw [hblocked next front hopened hfront hzero]
      rfl

theorem run_opening (h : frames.step opening = some (frames.push frame)) :
    frames.run [opening] = some (frames.push frame) := by
  rw [run_cons, h]
  rfl

/-- The tokens before the inside of a block, its inside and its closing tag. -/
theorem run_block {frame' : Frame} (hbefore : frames.run first = some (frames.push frame))
    (hinside : (frames.push frame).run inside = some (frames.push frame'))
    (hend : Waiting.step (frame'.waiting, 0) close = none) :
    frames.run (first ++ (inside ++ [close])) = some (frames.add [frame'.node]) := by
  rw [run_append, hbefore]
  show (frames.push frame).run (inside ++ [close]) = _
  rw [run_append, hinside]
  show (frames.push frame').run [close] = _
  rw [run_cons, step_close_push hend]
  rfl

theorem run_turn {expression : String} {negated : Bool} {body : List Node} {start : Position}
    (hopen : frames.step opening = some (frames.push (.condition expression negated [] none)))
    (hbody : (frames.push (.condition expression negated [] none)).run inside =
      some (frames.push (.condition expression negated body none))) :
    frames.run (opening :: (inside ++ [.tag .otherwise start])) =
      some (frames.push (.condition expression negated body (some []))) := by
  rw [run_cons, hopen]
  show (frames.push _).run (inside ++ [.tag .otherwise start]) = _
  rw [run_append, hbody]
  exact otherwise_push frames expression negated body

theorem Spares.of_block {depth : Nat} (h : frames.Spares (opening :: (inside ++ after)))
    (hopen : frames.step opening = some (frames.push frame))
    (hcount : Waiting.run (frame.waiting, 0) inside = some (frame.waiting, depth)) :
    (frames.push frame).Spares inside := by
  have hstart : frames.Spares ([opening] ++ inside) :=
    Spares.of_append (show frames.Spares ([opening] ++ inside ++ after) from h)
  exact hstart.after_push (run_opening hopen) rfl hcount

theorem Reads.of_block (frame : Frame) (hopen : frames.step opening = some (frames.push frame))
    (h : Token.cutAtEnd (frame.waiting, 0) rest = some (inside, after))
    (hcount : Waiting.run (frame.waiting, 0) inside = some (frame.waiting, 0))
    (hspares : frames.Spares (opening :: rest))
    (hinside : ∀ frames : Frames, frames.Spares inside →
      frames.Reads inside (Node.ofTokens inside))
    (hafter : ∀ frames : Frames, frames.Spares after → frames.Reads after (Node.ofTokens after)) :
    frames.Reads (opening :: rest) ((Node.ofTokens inside).bind fun body =>
      (Node.ofTokens after).map ([(frame.add body).node] ++ ·)) := by
  obtain ⟨close, last, rfl, hlast, hend⟩ := Token.cutAtEnd_eq_some _ h
  cases hcount.symm.trans hlast
  have hread := hinside (frames.push frame) (hspares.of_block hopen hcount)
  have hsplit : opening :: (inside ++ close :: after) =
      (opening :: (inside ++ [close])) ++ after := by
    simp
  rw [hsplit] at hspares ⊢
  cases hbody : Node.ofTokens inside with
  | error e =>
      rw [hbody] at hread
      refine Reads.of_run_eq_none after ?_
      rw [run_cons, hopen]
      exact run_eq_none_of_error hread hcount fun next front hopened hfront hzero =>
        step_close_of_blocked hend hopened hfront hzero
  | ok body =>
      rw [hbody] at hread
      have hrun : frames.run (opening :: (inside ++ [close])) =
          some (frames.add [(frame.add body).node]) :=
        run_block (run_opening hopen) hread (by rw [Frame.waiting_add]; exact hend)
      exact Reads.append hrun (hafter _ (hspares.after_same hrun (waiting_add ..)))

theorem run_second_branch {start : Position} {last : Waiting × Nat}
    (hfirst : Waiting.run (.condition, 0) first = some (.condition, 0))
    (hall : Waiting.run (.condition, 0) (first ++ .tag .otherwise start :: second) = some last)
    (hend : Waiting.step last close = none) :
    last = (.otherwise, 0) ∧ Waiting.run (.otherwise, 0) second = some (.otherwise, 0) := by
  rw [Waiting.run_append, hfirst] at hall
  have hsecond : Waiting.run (.otherwise, 0) second = some last := hall
  have hlast : last = (.otherwise, 0) := Waiting.eq_of_run_of_end (by decide) hsecond hend
  exact ⟨hlast, hlast ▸ hsecond⟩

theorem Reads.of_either {expression : String} {negated : Bool} {start : Position}
    {other : List Token}
    (hopen : frames.step opening = some (frames.push (.condition expression negated [] none)))
    (h : Token.cutAtEnd (.condition, 0) rest =
      some (first ++ .tag .otherwise start :: other, after))
    (hfirst : Waiting.run (.condition, 0) first = some (.condition, 0))
    (hspares : frames.Spares (opening :: rest))
    (hbody : ∀ frames : Frames, frames.Spares first → frames.Reads first (Node.ofTokens first))
    (hother : ∀ frames : Frames, frames.Spares other → frames.Reads other (Node.ofTokens other))
    (hafter : ∀ frames : Frames, frames.Spares after → frames.Reads after (Node.ofTokens after)) :
    frames.Reads (opening :: rest) ((Node.ofTokens first).bind fun body =>
      (Node.ofTokens other).bind fun otherwise =>
        (Node.ofTokens after).map ([.condition expression negated body (some otherwise)] ++ ·)) := by
  obtain ⟨close, last, rfl, hlast, hend⟩ := Token.cutAtEnd_eq_some _ h
  obtain ⟨rfl, hsecond⟩ := run_second_branch hfirst hlast hend
  have hread := hbody _ (Spares.of_block (by simpa using hspares) hopen hfirst)
  have hsplit : opening :: (first ++ .tag .otherwise start :: other ++ close :: after) =
      (opening :: (first ++ [.tag .otherwise start])) ++ (other ++ [close] ++ after) := by
    simp
  rw [hsplit] at hspares ⊢
  cases hfirstRead : Node.ofTokens first with
  | error e =>
      rw [hfirstRead] at hread
      -- What the first branch leaves open stands in the way of its `else`.
      refine Reads.of_run_eq_none _ ?_
      rw [run_cons, hopen]
      exact run_eq_none_of_error hread hfirst fun next front hopened hfront hzero =>
        otherwise_of_blocked hopened hfront hzero
  | ok body =>
      rw [hfirstRead] at hread
      have hturn : frames.run (opening :: (first ++ [.tag .otherwise start])) =
          some (frames.push (.condition expression negated body (some []))) :=
        run_turn hopen hread
      have hbranch : (frames.push (.condition expression negated body (some []))).Spares other := by
        rw [List.append_assoc, ← List.append_assoc] at hspares
        exact hspares.of_append.after_push hturn rfl hsecond
      have hreadOther := hother _ hbranch
      cases hotherRead : Node.ofTokens other with
      | error e =>
          rw [hotherRead] at hreadOther
          -- The second branch has no `else` after it, so here the closing tag is what fails.
          rw [← List.append_assoc]
          refine Reads.of_run_eq_none _ ?_
          rw [run_append, hturn]
          exact run_eq_none_of_error hreadOther hsecond fun next front hopened hfront hzero =>
            step_close_of_blocked hend hopened hfront hzero
      | ok nodes =>
          rw [hotherRead] at hreadOther
          have hrun : frames.run (opening :: (first ++ [.tag .otherwise start]) ++
              (other ++ [close])) =
              some (frames.add [.condition expression negated body (some nodes)]) :=
            run_block hturn hreadOther hend
          rw [← List.append_assoc] at hspares ⊢
          exact Reads.append hrun (hafter _ (hspares.after_same hrun (waiting_add ..)))

theorem Reads.of_single {token : Token} {made : List Node}
    (hstep : frames.step token = some (frames.add made)) (hspares : frames.Spares (token :: rest))
    (hrest : ∀ frames : Frames, frames.Spares rest → frames.Reads rest (Node.ofTokens rest)) :
    frames.Reads (token :: rest) ((Node.ofTokens rest).map (made ++ ·)) := by
  have hrun : frames.run [token] = some (frames.add made) := by
    rw [run_cons, hstep]
    rfl
  have hspares' : frames.Spares ([token] ++ rest) := hspares
  exact Reads.append hrun (hrest _ (hspares'.after_same hrun (waiting_add ..)))

theorem step_eq_add_of_spares {tag : Tag} {start : Position}
    (htag : ∀ block argument, tag ≠ .opening block argument)
    (h : frames.Spares (.tag tag start :: rest)) :
    frames.step (.tag tag start) = some (frames.add (Node.ofLeaf? tag).toList) := by
  cases tag with
  | opening block argument => exact absurd rfl (htag block argument)
  | otherwise =>
      rw [show Node.ofLeaf? .otherwise = none from rfl, Option.toList_none, add_nil]
      exact otherwise_of_spares h
  | closing name =>
      rw [show Node.ofLeaf? (.closing name) = none from rfl, Option.toList_none, add_nil]
      by_cases hname : ∃ waiting : Waiting, waiting.closes (.closing name) = true
      · obtain ⟨waiting, hcloses⟩ := hname
        obtain ⟨family, hfamily, hstep⟩ := exists_family hcloses
        rw [hstep]
        refine close_of_spares hfamily (fun other hother => ?_) h
        rw [Waiting.closes, hother]
        exact hcloses
      · have hcondition : ¬(name = "if" ∨ name = "unless") := fun hif =>
          hname ⟨.condition, by simpa [Waiting.closes, Waiting.isCondition, Tag.closesCondition]⟩
        have hloop : name ≠ "each" := fun heach => hname ⟨.loop, by subst heach; rfl⟩
        rw [step, if_neg hcondition, if_neg hloop]
  | _ => rfl

theorem step_opening_condition {block : Block} (hblock : block ≠ .each) (frames : Frames)
    (expression : String) (start : Position) :
    frames.step (.tag (.opening block expression) start) =
      some (frames.push (.condition expression (block = .unless) [] none)) := by
  cases block <;> first | rfl | exact absurd rfl hblock

/-- **Cutting and one pass agree** on every slice. The induction follows the reader: over the
slices that it cuts. -/
theorem reads_ofTokens (tokens : List Token) :
    ∀ frames : Frames, frames.Spares tokens → frames.Reads tokens (Node.ofTokens tokens) := by
  induction tokens using Node.ofTokens.induct with
  | case1 =>
      intro frames _
      rw [Node.ofTokens]
      show frames.run [] = some (frames.add [])
      rw [add_nil]
      rfl
  | case2 content rest ih =>
      intro frames hspares
      rw [Node.ofTokens_text]
      exact Reads.of_single rfl hspares ih
  | case3 collection start rest hcut =>
      intro frames _
      rw [Node.ofTokens_unclosed_loop hcut]
      exact Reads.of_unclosed (.loop collection []) rfl hcut
  | case4 collection start rest inside after hcut ihInside ihAfter =>
      intro frames hspares
      obtain ⟨close, last, _, hrun, hend⟩ := Token.cutAtEnd_eq_some (.loop, 0) hcut
      have hlast : last = (.loop, 0) := Waiting.eq_of_run_of_end (by decide) hrun hend
      rw [Node.ofTokens_loop hcut]
      exact Reads.of_block (.loop collection []) rfl hcut (hlast ▸ hrun) hspares ihInside ihAfter
  | case5 block expression start rest hblock hcut =>
      intro frames _
      rw [Node.ofTokens_unclosed_condition hblock hcut]
      exact Reads.of_unclosed (.condition expression (block = .unless) [] none)
        (step_opening_condition hblock ..) hcut
  | case6 block expression start rest hblock inside after hcut ihFirst ihAfter ihOther =>
      intro frames hspares
      obtain ⟨close, last, _, hrun, hend⟩ := Token.cutAtEnd_eq_some (.condition, 0) hcut
      rcases Token.cutAtOtherwise_of_run hrun with
        ⟨hsplit, hlast⟩ | ⟨first, otherwise, other, hsplit, hall, hfirst, _⟩
      · rw [hsplit] at ihFirst
        have hzero : last = (.condition, 0) :=
          Prod.ext hlast (Waiting.step_eq_none_iff.1 hend).2.2
        rw [Node.ofTokens_condition hblock hcut hsplit]
        exact Reads.of_block (.condition expression (block = .unless) [] none)
          (step_opening_condition hblock ..) hcut (hzero ▸ hrun) hspares ihFirst ihAfter
      · rw [hsplit] at ihFirst ihOther
        rw [Node.ofTokens_either hblock hcut hsplit]
        rw [hall] at hcut
        exact Reads.of_either (step_opening_condition hblock ..) hcut hfirst hspares ihFirst
          (ihOther other rfl) ihAfter
  | case7 tag start rest hloop hopening ih =>
      intro frames hspares
      rw [Node.ofTokens_tag hopening]
      exact Reads.of_single (step_eq_add_of_spares hopening hspares) hspares ih

end Frames

namespace Node

theorem ofTokens_eq_ok_iff {tokens : List Token} {nodes : List Node} :
    ofTokens tokens = .ok nodes ↔ Frames.tree? tokens = some nodes := by
  have hread := Frames.reads_ofTokens tokens {} (fun above _ _ h => by cases above <;> cases h)
  unfold Frames.tree?
  cases hresult : ofTokens tokens with
  | ok made =>
      rw [hresult] at hread
      have hrun : Frames.run {} tokens = some (Frames.add {} made) := hread
      rw [hrun]
      simp [Frames.add, Frames.finish]
  | error e =>
      rw [hresult] at hread
      cases hrun : Frames.run {} tokens with
      | none => simp
      | some next =>
          have hopen : 0 < next.opened.length := by
            simpa [Frames.waiting] using hread next hrun
          have hnonempty : next.opened ≠ [] := List.ne_nil_of_length_pos hopen
          simp [Frames.finish, hnonempty]

theorem eq_unclosedBlock_of_ofTokens {tokens : List Token} {e : ParseError}
    (h : ofTokens tokens = .error e) : ∃ block line, e = .unclosedBlock block line := by
  induction tokens using ofTokens.induct generalizing e with
  | case1 =>
      rw [ofTokens] at h
      cases h
  | case2 content rest ih =>
      rw [ofTokens_text] at h
      exact ih (eq_error_of_map h)
  | case3 collection start rest hcut =>
      rw [ofTokens_unclosed_loop hcut] at h
      cases h
      exact ⟨_, _, rfl⟩
  | case4 collection start rest inside after hcut ihInside ihAfter =>
      rw [ofTokens_loop hcut] at h
      rcases eq_error_of_bind h with hinside | ⟨body, -, hafter⟩
      · exact ihInside hinside
      · exact ihAfter (eq_error_of_map hafter)
  | case5 block expression start rest hblock hcut =>
      rw [ofTokens_unclosed_condition hblock hcut] at h
      cases h
      exact ⟨_, _, rfl⟩
  | case6 block expression start rest hblock inside after hcut ihFirst ihAfter ihOther =>
      obtain ⟨close, last, _, hrun, _⟩ := Token.cutAtEnd_eq_some (.condition, 0) hcut
      rcases Token.cutAtOtherwise_of_run hrun with ⟨hsplit, _⟩ | ⟨first, _, other, hsplit, _⟩
      · rw [hsplit] at ihFirst
        rw [ofTokens_condition hblock hcut hsplit] at h
        rcases eq_error_of_bind h with hinside | ⟨body, -, hafter⟩
        · exact ihFirst hinside
        · exact ihAfter (eq_error_of_map hafter)
      · rw [hsplit] at ihFirst ihOther
        rw [ofTokens_either hblock hcut hsplit] at h
        rcases eq_error_of_bind h with hfirst | ⟨body, -, hrest⟩
        · exact ihFirst hfirst
        · rcases eq_error_of_bind hrest with hother | ⟨otherwise, -, hafter⟩
          · exact ihOther other rfl hother
          · exact ihAfter (eq_error_of_map hafter)
  | case7 tag start rest hloop hopening ih =>
      rw [ofTokens_tag hopening] at h
      exact ih (eq_error_of_map h)

end Node

theorem parse_eq_ok_iff {source : String} {nodes : List Node} :
    parse source = .ok nodes ↔
      (scan source).failure = none ∧ Frames.tree? (scan source).tokens = some nodes := by
  rw [parse]
  split
  · rename_i e hfailure
    simp [hfailure]
  · rename_i hfailure
    simp [hfailure, Node.ofTokens_eq_ok_iff]

/-- **One pass reads what cutting reads.** A text whose tags are all well formed is a template
exactly when the pass over its tokens leaves no block open and meets none in its way, and then the
pass makes the same tree; otherwise the text has a block without an end. -/
theorem parse_iff_onePass (source : String) (h : (scan source).failure = none) :
    (∀ nodes, parse source = .ok nodes ↔ Frames.tree? (scan source).tokens = some nodes) ∧
      (Frames.tree? (scan source).tokens = none →
        ∃ block line, parse source = .error (.unclosedBlock block line)) := by
  have hparse : parse source = Node.ofTokens (scan source).tokens := by
    rw [parse, h]
  rw [hparse]
  refine ⟨fun nodes => Node.ofTokens_eq_ok_iff, fun hnone => ?_⟩
  cases hresult : Node.ofTokens (scan source).tokens with
  | ok nodes =>
      rw [Node.ofTokens_eq_ok_iff.1 hresult] at hnone
      cases hnone
  | error e =>
      obtain ⟨block, line, rfl⟩ := Node.eq_unclosedBlock_of_ofTokens hresult
      exact ⟨block, line, rfl⟩

def unevenMarks : String :=
  "\x7b\x7b#if a\x7d\x7dx\x7b\x7b/each\x7d\x7d\x7b\x7belse\x7d\x7d" ++
    "\x7b\x7b#each b\x7d\x7dy\x7b\x7belse\x7d\x7d\x7b\x7b/each\x7d\x7d\x7b\x7b/unless\x7d\x7d"

theorem parse_unevenMarks :
    (scan unevenMarks).failure = none ∧
      parse unevenMarks = .ok [.condition "a" false [.text "x"] (some [.loop "b" [.text "y"]])] := by
  have hscan : (scan unevenMarks).failure = none := by decide
  exact ⟨hscan, ((parse_iff_onePass unevenMarks hscan).1 _).2 (by rfl)⟩

end PromptSheet.Template
