import PromptSheet.Proofs.BlockEnds
import PromptSheet.Proofs.Frames

/-!
# The stack of open blocks and their counts

The count that looks for the end of a block ignores the other family, while the pass from left to
right keeps all open blocks on one stack. What ties them together: as long as the pass goes on, each
open block stands where its own count says, with as many blocks of its family above it on the stack
as the count is deep (`waiting_run`). So a block ends for its count at the tag that closes it on the
stack, and with a block of the other family above it the pass fails there.
-/

namespace PromptSheet.Template

def Frame.waiting : Frame → Waiting
  | .condition _ _ _ none => .condition
  | .condition _ _ _ (some _) => .otherwise
  | .loop .. => .loop

/-- How many of these blocks are of the family of `waiting`. -/
def Waiting.depthIn (waiting : Waiting) (above : List Waiting) : Nat :=
  above.countP fun other => other.isCondition == waiting.isCondition

theorem Waiting.depthIn_cons (waiting other : Waiting) (above : List Waiting) :
    waiting.depthIn (other :: above) =
      if other.isCondition = waiting.isCondition then waiting.depthIn above + 1
      else waiting.depthIn above := by
  simp only [depthIn, List.countP_cons, beq_iff_eq]
  split <;> rfl

namespace Frame

@[simp]
theorem waiting_add (nodes : List Node) (frame : Frame) :
    (frame.add nodes).waiting = frame.waiting := by
  rcases frame with ⟨_, _, _, _ | _⟩ | _ <;> rfl

theorem isCondition_waiting (frame : Frame) : frame.waiting.isCondition = frame.isCondition := by
  rcases frame with ⟨_, _, _, _ | _⟩ | _ <;> rfl

theorem isLoop_eq (frame : Frame) : frame.isLoop = !frame.isCondition := by
  cases frame <;> rfl

end Frame

namespace Frames

def waiting (frames : Frames) : List Waiting :=
  frames.opened.map Frame.waiting

@[simp]
theorem waiting_add (frames : Frames) (nodes : List Node) :
    (frames.add nodes).waiting = frames.waiting := by
  obtain ⟨outer, _ | ⟨innermost, others⟩⟩ := frames <;> simp [add, waiting]

@[simp]
theorem waiting_push (frames : Frames) (frame : Frame) :
    (frames.push frame).waiting = frame.waiting :: frames.waiting := rfl

/-- A closing tag that does not fail takes the innermost block of its family off, or finds none. -/
theorem close_cases {family : Frame → Bool} {condition : Bool} {frames next : Frames}
    (hfamily : ∀ frame : Frame, family frame = (frame.waiting.isCondition == condition))
    (h : frames.close family = some next) :
    next.waiting = frames.waiting ∧
        (∀ waiting ∈ frames.waiting, waiting.isCondition ≠ condition) ∨
      ∃ waiting, waiting.isCondition = condition ∧ frames.waiting = waiting :: next.waiting := by
  obtain ⟨outer, _ | ⟨innermost, others⟩⟩ := frames
  · cases h
    exact .inl ⟨rfl, by simp [waiting]⟩
  · simp only [close] at h
    split at h
    · next hmine =>
      cases h
      rw [hfamily] at hmine
      exact .inr ⟨innermost.waiting, by simpa using hmine, by rw [waiting_add]; rfl⟩
    · next hother =>
      split at h
      · cases h
      · next hnone =>
        cases h
        refine .inl ⟨rfl, ?_⟩
        simp only [hfamily, beq_iff_eq, List.any_eq_true, not_exists, not_and] at hother hnone
        simp only [waiting, List.map_cons, List.mem_cons, List.mem_map, forall_eq_or_imp,
          forall_exists_index, and_imp, forall_apply_eq_imp_iff₂]
        exact ⟨hother, hnone⟩

theorem find?_waiting (frames : Frames) :
    frames.waiting.find? Waiting.isCondition =
      (frames.opened.find? Frame.isCondition).map Frame.waiting := by
  rw [waiting, List.find?_map]
  congr 2
  funext frame
  exact frame.isCondition_waiting

theorem hasOtherwise_iff {frame : Frame} (h : frame.isCondition = true) :
    frame.hasOtherwise = true ↔ frame.waiting ≠ .condition := by
  rcases frame with ⟨_, _, _, _ | _⟩ | _
  · simp [Frame.hasOtherwise, Frame.waiting]
  · simp [Frame.hasOtherwise, Frame.waiting]
  · cases h

/-- An `else` that does not fail turns the innermost block, or the innermost condition has both its
branches or is not there. -/
theorem otherwise_cases {frames next : Frames} (h : frames.otherwise = some next) :
    next.waiting = frames.waiting ∧
        frames.waiting.find? Waiting.isCondition ≠ some .condition ∨
      ∃ others, frames.waiting = .condition :: others ∧ next.waiting = .otherwise :: others := by
  unfold otherwise at h
  split at h
  · next hnone =>
    cases h
    exact .inl ⟨rfl, by simp [find?_waiting, hnone]⟩
  · next owner howner =>
    split at h
    · next hboth =>
      cases h
      rw [hasOtherwise_iff (List.find?_some howner)] at hboth
      exact .inl ⟨rfl, by simpa [find?_waiting, howner] using hboth⟩
    · split at h
      · next heq =>
        cases h
        exact .inr ⟨_, by rw [waiting, heq]; rfl, rfl⟩
      · cases h

/-! ### One step

The counts of the open blocks and the stack move together. In each case below the block looked at
splits the stack into what lies above it and what lies below it, and the step never reaches below.
-/

section Step

variable {frames next : Frames} {above below : List Waiting} {waiting last : Waiting} {depth : Nat}
  {token : Token}

theorem waiting_push_opening {frame : Frame} {block : Block} {argument : String} {start : Position}
    (hframe : frame.waiting.isCondition = (block != .each))
    (hopened : frames.waiting = above ++ waiting :: below)
    (hcount : Waiting.step (waiting, waiting.depthIn above) (.tag (.opening block argument) start) =
      some (last, depth)) :
    ∃ front, (frames.push frame).waiting = front ++ last :: below ∧ last.depthIn front = depth := by
  rw [Waiting.step_opening, Option.some.injEq, Prod.mk.injEq] at hcount
  obtain ⟨rfl, rfl⟩ := hcount
  refine ⟨frame.waiting :: above, by rw [waiting_push, hopened]; rfl, ?_⟩
  rw [Waiting.depthIn_cons, hframe]
  by_cases hfamily : waiting.isCondition = (block != .each)
  · rw [if_pos hfamily, if_pos hfamily.symm]
  · rw [if_neg hfamily, if_neg (Ne.symm hfamily)]

theorem waiting_close_step (condition : Bool) {family : Frame → Bool} {name : String}
    {start : Position} (hfamily : ∀ frame, family frame = (frame.waiting.isCondition == condition))
    (hcloses : waiting.closes (.closing name) = (waiting.isCondition == condition))
    (hopened : frames.waiting = above ++ waiting :: below)
    (hcount : Waiting.step (waiting, waiting.depthIn above) (.tag (.closing name) start) =
      some (last, depth))
    (h : frames.close family = some next) :
    ∃ front, next.waiting = front ++ last :: below ∧ last.depthIn front = depth := by
  rw [Waiting.step_closing, hcloses] at hcount
  rcases close_cases hfamily h with ⟨hkept, hnone⟩ | ⟨innermost, hmine, htaken⟩
  · have hother : waiting.isCondition ≠ condition := hnone waiting (by simp [hopened])
    simp only [beq_iff_eq, hother, if_false, Option.some.injEq, Prod.mk.injEq] at hcount
    obtain ⟨rfl, rfl⟩ := hcount
    exact ⟨above, hkept.trans hopened, rfl⟩
  · rw [htaken] at hopened
    cases above with
    | nil =>
        cases hopened
        simp [hmine, Waiting.depthIn] at hcount
    | cons first above =>
        obtain ⟨rfl, hrest⟩ := List.cons.inj hopened
        rw [Waiting.depthIn_cons, hmine] at hcount
        by_cases heq : waiting.isCondition = condition
        · rw [if_pos (beq_iff_eq.2 heq), if_pos heq.symm] at hcount
          cases hcount
          exact ⟨above, hrest, rfl⟩
        · rw [if_neg (mt beq_iff_eq.1 heq), if_neg (Ne.symm heq)] at hcount
          cases hcount
          exact ⟨above, hrest, rfl⟩

theorem waiting_otherwise_step {start : Position}
    (hopened : frames.waiting = above ++ waiting :: below)
    (hcount : Waiting.step (waiting, waiting.depthIn above) (.tag .otherwise start) =
      some (last, depth))
    (h : frames.otherwise = some next) :
    ∃ front, next.waiting = front ++ last :: below ∧ last.depthIn front = depth := by
  rw [Waiting.step_otherwise, Option.some.injEq, Prod.mk.injEq] at hcount
  obtain ⟨rfl, rfl⟩ := hcount
  rcases otherwise_cases h with ⟨hkept, hnone⟩ | ⟨others, hbefore, hafter⟩
  · have hnot : ¬(waiting = .condition ∧ waiting.depthIn above = 0) := by
      rintro ⟨rfl, hzero⟩
      refine hnone ?_
      rw [Waiting.depthIn, List.countP_eq_zero] at hzero
      have hnot : above.find? Waiting.isCondition = none := by
        simpa [Waiting.isCondition] using hzero
      rw [hopened, List.find?_append, hnot]
      rfl
    rw [if_neg hnot]
    exact ⟨above, hkept.trans hopened, rfl⟩
  · rw [hbefore] at hopened
    cases above with
    | nil =>
        cases hopened
        exact ⟨[], hafter, rfl⟩
    | cons first above =>
        obtain ⟨rfl, hrest⟩ := List.cons.inj hopened
        have hnot : ¬(waiting = .condition ∧ waiting.depthIn (.condition :: above) = 0) := by
          rintro ⟨rfl, hzero⟩
          simp [Waiting.depthIn] at hzero
        rw [if_neg hnot]
        refine ⟨.otherwise :: above, by rw [hafter, hrest]; rfl, ?_⟩
        rw [Waiting.depthIn_cons, Waiting.depthIn_cons]
        rfl

theorem waiting_add_step {nodes : List Node}
    (hopened : frames.waiting = above ++ waiting :: below)
    (hcount : some (waiting, waiting.depthIn above) = some (last, depth)) :
    ∃ front, (frames.add nodes).waiting = front ++ last :: below ∧ last.depthIn front = depth := by
  cases hcount
  exact ⟨above, by rw [waiting_add, hopened], rfl⟩

/-- **Each count follows the stack.** -/
theorem waiting_step (hopened : frames.waiting = above ++ waiting :: below)
    (hcount : Waiting.step (waiting, waiting.depthIn above) token = some (last, depth))
    (h : frames.step token = some next) :
    ∃ front, next.waiting = front ++ last :: below ∧ last.depthIn front = depth := by
  cases token with
  | text content =>
      cases h
      rw [Waiting.step_text] at hcount
      exact waiting_add_step hopened hcount
  | tag tag start =>
      cases tag with
      | opening block argument =>
          cases block <;> cases h <;> exact waiting_push_opening rfl hopened hcount
      | otherwise => exact waiting_otherwise_step hopened hcount h
      | closing name =>
          simp only [step] at h
          split at h
          · next hname =>
            refine waiting_close_step true ?_ ?_ hopened hcount h
            · intro frame
              rw [frame.isCondition_waiting, beq_true]
            · rcases hname with rfl | rfl <;> cases waiting <;> rfl
          · next hother =>
            split at h
            · next hname =>
              subst hname
              refine waiting_close_step false ?_ ?_ hopened hcount h
              · intro frame
                rw [frame.isCondition_waiting, frame.isLoop_eq, beq_false]
              · cases waiting <;> rfl
            · next hloop =>
              cases h
              rw [not_or] at hother
              have hcloses : waiting.closes (.closing name) = false := by
                cases waiting <;> simp [Waiting.closes, Waiting.isCondition, Tag.closesCondition,
                  Tag.closesLoop, hother, hloop]
              rw [Waiting.step_closing, hcloses] at hcount
              cases hcount
              exact ⟨above, hopened, rfl⟩
      | comment _ | rawSlot _ | inclusion _ | slot _ =>
          cases h
          rw [Waiting.step_of_ofLeaf? _ _ _ rfl] at hcount
          exact waiting_add_step hopened hcount

theorem waiting_run {tokens : List Token} (hopened : frames.waiting = above ++ waiting :: below)
    (hcount : Waiting.run (waiting, waiting.depthIn above) tokens = some (last, depth))
    (h : frames.run tokens = some next) :
    ∃ front, next.waiting = front ++ last :: below ∧ last.depthIn front = depth := by
  induction tokens generalizing frames above waiting with
  | nil =>
      cases h
      cases hcount
      exact ⟨above, hopened, rfl⟩
  | cons token rest ih =>
      rw [run_cons] at h
      rw [Waiting.run_cons] at hcount
      obtain ⟨middle, hstep, hrest⟩ := Option.bind_eq_some_iff.1 h
      obtain ⟨⟨between, inner⟩, hfirst, hsecond⟩ := Option.bind_eq_some_iff.1 hcount
      obtain ⟨front, hfront, rfl⟩ := waiting_step hopened hfirst hstep
      exact ih hfront hsecond hrest

theorem waiting_run_push {frame : Frame} {tokens : List Token}
    (hcount : Waiting.run (frame.waiting, 0) tokens = some (last, depth))
    (h : (frames.push frame).run tokens = some next) :
    ∃ front, next.waiting = front ++ last :: frames.waiting ∧ last.depthIn front = depth :=
  waiting_run (show (frames.push frame).waiting = [] ++ frame.waiting :: frames.waiting from rfl)
    hcount h

end Step

/-! ### Slices

A slice that the counting reader cuts out is read again on its own. The blocks around it are those
that the pass has open when it comes to the slice.
-/

/-- No block that is open ends or turns to its second branch within these tokens. -/
def Spares (frames : Frames) (tokens : List Token) : Prop :=
  ∀ above waiting below, frames.waiting = above ++ waiting :: below →
    ∃ depth, Waiting.run (waiting, waiting.depthIn above) tokens = some (waiting, depth)

variable {frames next : Frames} {first second : List Token}

theorem Spares.of_append (h : frames.Spares (first ++ second)) : frames.Spares first := by
  intro above waiting below hopened
  obtain ⟨depth, hrun⟩ := h above waiting below hopened
  obtain ⟨middle, hfirst, _⟩ := Waiting.run_split hrun
  exact ⟨middle, hfirst⟩

/-- The blocks that were open before stay untouched; of those opened since one has to know it. -/
theorem Spares.after (new : List Waiting) (h : frames.Spares (first ++ second))
    (hrun : frames.run first = some next) (hopened : next.waiting = new ++ frames.waiting)
    (hnew : ∀ above waiting below, new = above ++ waiting :: below →
      ∃ depth, Waiting.run (waiting, waiting.depthIn above) second = some (waiting, depth)) :
    next.Spares second := by
  intro above waiting below hsplit
  have hold : ∀ front, frames.waiting = front ++ waiting :: below → above = new ++ front →
      ∃ depth, Waiting.run (waiting, waiting.depthIn above) second = some (waiting, depth) := by
    intro front hfront habove
    obtain ⟨depth, hall⟩ := h front waiting below hfront
    obtain ⟨middle, hfirst, hsecond⟩ := Waiting.run_split hall
    obtain ⟨front', hfront', rfl⟩ := waiting_run hfront hfirst hrun
    have hsame : front' = above := List.append_cancel_right (hfront'.symm.trans hsplit)
    exact ⟨depth, hsame ▸ hsecond⟩
  rw [hopened] at hsplit
  rcases List.append_eq_append_iff.1 hsplit with ⟨front, habove, hfront⟩ | ⟨rest, hnewEq, hrest⟩
  · exact hold front hfront habove
  · cases rest with
    | nil => exact hold [] hrest.symm (by simpa using hnewEq.symm)
    | cons other rest =>
        obtain ⟨rfl, _⟩ := List.cons.inj hrest
        exact hnew above waiting rest hnewEq

theorem Spares.after_same (h : frames.Spares (first ++ second))
    (hrun : frames.run first = some next) (hopened : next.waiting = frames.waiting) :
    next.Spares second :=
  h.after [] hrun hopened (by simp)

theorem Spares.after_push {waiting : Waiting} {depth : Nat} (h : frames.Spares (first ++ second))
    (hrun : frames.run first = some next) (hopened : next.waiting = waiting :: frames.waiting)
    (hcount : Waiting.run (waiting, 0) second = some (waiting, depth)) : next.Spares second := by
  refine h.after [waiting] hrun hopened ?_
  intro above other below hnew
  cases above with
  | nil =>
      cases hnew
      exact ⟨depth, hcount⟩
  | cons => simp at hnew

theorem exists_innermost {condition : Bool} {opened : List Waiting} {waiting : Waiting}
    (h : opened.find? (fun other => other.isCondition == condition) = some waiting) :
    waiting.isCondition = condition ∧
      ∃ above below, opened = above ++ waiting :: below ∧ waiting.depthIn above = 0 := by
  obtain ⟨hmine, above, below, rfl, hnone⟩ := List.find?_eq_some_iff_append.1 h
  have hcondition : waiting.isCondition = condition := by simpa using hmine
  refine ⟨hcondition, above, below, rfl, ?_⟩
  rw [Waiting.depthIn, List.countP_eq_zero]
  simpa [hcondition] using hnone

theorem close_of_spares {family : Frame → Bool} {condition : Bool} {name : String} {start : Position}
    (hfamily : ∀ frame : Frame, family frame = (frame.waiting.isCondition == condition))
    (hcloses : ∀ waiting : Waiting, waiting.isCondition = condition →
      waiting.closes (.closing name) = true)
    (h : frames.Spares (.tag (.closing name) start :: second)) :
    frames.close family = some frames := by
  have hnone : frames.waiting.find? (fun other => other.isCondition == condition) = none := by
    cases hfind : frames.waiting.find? (fun other => other.isCondition == condition) with
    | none => rfl
    | some waiting =>
        obtain ⟨hmine, above, below, hopened, hzero⟩ := exists_innermost hfind
        obtain ⟨depth, hrun⟩ := h above waiting below hopened
        rw [Waiting.run_cons, Waiting.step_closing, hcloses waiting hmine, hzero] at hrun
        cases hrun
  obtain ⟨outer, _ | ⟨innermost, others⟩⟩ := frames
  · rfl
  · simp only [waiting, List.map_cons, List.find?_eq_none, List.mem_cons, List.mem_map,
      forall_eq_or_imp, forall_exists_index, and_imp, forall_apply_eq_imp_iff₂, ← hfamily] at hnone
    obtain ⟨hfirst, hrest⟩ := hnone
    have hany : others.any family = false := by simpa using hrest
    simp [close, hfirst, hany]

theorem otherwise_of_spares {start : Position}
    (h : frames.Spares (.tag .otherwise start :: second)) : frames.otherwise = some frames := by
  unfold otherwise
  split
  · rfl
  · next owner howner =>
    have hfind : frames.waiting.find? (fun other => other.isCondition == true) =
        some owner.waiting := by
      simp only [beq_true]
      rw [find?_waiting, howner]
      rfl
    obtain ⟨_, above, below, hopened, hzero⟩ := exists_innermost hfind
    obtain ⟨depth, hrun⟩ := h above owner.waiting below hopened
    rw [if_pos]
    rw [hasOtherwise_iff (List.find?_some howner)]
    intro hwaiting
    rw [Waiting.run_cons, Waiting.step_otherwise, if_pos ⟨hwaiting, hzero⟩] at hrun
    rcases Waiting.run_eq_or hrun with hkeep | ⟨hturn, _⟩
    · rw [hwaiting] at hkeep
      cases hkeep
    · cases hturn

section Blocked

variable {front below : List Waiting} {waiting : Waiting}

/-- A tag that closes an open block fails while a block of the other family is the innermost. -/
theorem close_of_blocked {family : Frame → Bool}
    (hfamily : ∀ frame, family frame = (frame.waiting.isCondition == waiting.isCondition))
    (hopened : frames.waiting = front ++ waiting :: below) (hfront : front ≠ [])
    (hzero : waiting.depthIn front = 0) : frames.close family = none := by
  cases hclose : frames.close family with
  | none => rfl
  | some next =>
      rcases close_cases hfamily hclose with ⟨_, hnone⟩ | ⟨innermost, hmine, htaken⟩
      · exact absurd rfl (hnone waiting (by simp [hopened]))
      · obtain ⟨first, rest, rfl⟩ := List.exists_cons_of_ne_nil hfront
        rw [htaken] at hopened
        obtain ⟨rfl, _⟩ := List.cons.inj hopened
        rw [Waiting.depthIn, List.countP_eq_zero] at hzero
        simp [hmine] at hzero

theorem otherwise_of_blocked (hopened : frames.waiting = front ++ .condition :: below)
    (hfront : front ≠ []) (hzero : Waiting.condition.depthIn front = 0) : frames.otherwise = none := by
  have hloops : ∀ other ∈ front, other.isCondition = false := by
    rw [Waiting.depthIn, List.countP_eq_zero] at hzero
    simpa [Waiting.isCondition] using hzero
  cases hotherwise : frames.otherwise with
  | none => rfl
  | some next =>
      rcases otherwise_cases hotherwise with ⟨_, hnone⟩ | ⟨others, hbefore, _⟩
      · refine absurd ?_ hnone
        have hskip : front.find? Waiting.isCondition = none := by simpa using hloops
        rw [hopened, List.find?_append, hskip]
        rfl
      · obtain ⟨first, rest, rfl⟩ := List.exists_cons_of_ne_nil hfront
        rw [hbefore] at hopened
        obtain ⟨rfl, _⟩ := List.cons.inj hopened
        cases hloops _ List.mem_cons_self

end Blocked

end Frames

end PromptSheet.Template
