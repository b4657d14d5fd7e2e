import PromptSheet.Template.Parse

/-!
# Where a block ends

The end of a block is found by counting the tags of its own family. `Waiting` is that count as a
state: what the block waits for, and how many blocks of its family stand open inside it. The two
cuts at a closing tag and at an `else` are runs of this count, which is how they are compared with a
reading that goes from left to right.
-/

namespace PromptSheet.Template

theorem Token.eq_of_isOtherwise (token : Token) (h : token.isOtherwise = true) :
    ∃ start, token = .tag .otherwise start := by
  cases token with
  | text => cases h
  | tag tag start =>
      cases tag with
      | otherwise => exact ⟨start, rfl⟩
      | _ => cases h

inductive Waiting where
  | loop
  | condition
  /-- The end of a condition whose second branch has begun. -/
  | otherwise
deriving DecidableEq

namespace Waiting

def isCondition : Waiting → Bool
  | loop => false
  | condition => true
  | otherwise => true

def opens (waiting : Waiting) : Tag → Bool :=
  if waiting.isCondition then Tag.opensCondition else Tag.opensLoop

def closes (waiting : Waiting) : Tag → Bool :=
  if waiting.isCondition then Tag.closesCondition else Tag.closesLoop

/-- One token more. There is no next state after the end of the block. -/
def step (state : Waiting × Nat) (token : Token) : Option (Waiting × Nat) :=
  if token.isTag state.1.opens then some (state.1, state.2 + 1)
  else if token.isTag state.1.closes then
    match state.2 with
    | 0 => none
    | depth + 1 => some (state.1, depth)
  else if token.isOtherwise ∧ state = (condition, 0) then some (otherwise, 0)
  else some state

def run (state : Waiting × Nat) (tokens : List Token) : Option (Waiting × Nat) :=
  tokens.foldlM step state

@[simp]
theorem run_nil (state : Waiting × Nat) : run state [] = some state := rfl

@[simp]
theorem run_cons (state : Waiting × Nat) (token : Token) (tokens : List Token) :
    run state (token :: tokens) = (step state token).bind fun next => run next tokens := rfl

theorem run_append (state : Waiting × Nat) (first second : List Token) :
    run state (first ++ second) = (run state first).bind fun next => run next second :=
  List.foldlM_append

section Tokens

variable (waiting : Waiting) (depth : Nat) (start : Position)

theorem step_text (content : String) :
    step (waiting, depth) (.text content) = some (waiting, depth) := by
  cases waiting <;> rfl

theorem step_opening (block : Block) (argument : String) :
    step (waiting, depth) (.tag (.opening block argument) start) =
      some (waiting, if waiting.isCondition = (block != .each) then depth + 1 else depth) := by
  cases waiting <;> cases block <;> rfl

theorem step_otherwise :
    step (waiting, depth) (.tag .otherwise start) =
      some (if waiting = condition ∧ depth = 0 then otherwise else waiting, depth) := by
  cases waiting <;> cases depth <;> rfl

theorem step_closing (name : String) :
    step (waiting, depth) (.tag (.closing name) start) =
      if waiting.closes (.closing name) then
        match depth with
        | 0 => none
        | depth + 1 => some (waiting, depth)
      else some (waiting, depth) := by
  cases waiting <;> simp [step, Token.isTag, opens, Tag.opensCondition, Tag.opensLoop,
    isCondition, Token.isOtherwise]

theorem step_of_ofLeaf? {tag : Tag} {node : Node} (h : Node.ofLeaf? tag = some node) :
    step (waiting, depth) (.tag tag start) = some (waiting, depth) := by
  cases tag with
  | opening | otherwise | closing => cases h
  | _ => cases waiting <;> rfl

end Tokens

/-- A condition in its second branch never goes back to its first, and a loop stays a loop. -/
theorem step_eq_or {state next : Waiting × Nat} {token : Token} (h : step state token = some next) :
    next.1 = state.1 ∨ state.1 = condition ∧ next.1 = otherwise := by
  unfold step at h
  split at h
  · cases h
    exact .inl rfl
  · split at h
    · split at h
      · cases h
      · cases h
        exact .inl rfl
    · split at h
      · next hotherwise =>
        cases h
        exact .inr ⟨by rw [hotherwise.2], rfl⟩
      · cases h
        exact .inl rfl

theorem run_eq_or {state last : Waiting × Nat} {tokens : List Token}
    (h : run state tokens = some last) :
    last.1 = state.1 ∨ state.1 = condition ∧ last.1 = otherwise := by
  induction tokens generalizing state with
  | nil =>
      cases h
      exact .inl rfl
  | cons token rest ih =>
      obtain ⟨next, hnext, hrest⟩ := Option.bind_eq_some_iff.1 h
      rcases step_eq_or hnext with hkeep | ⟨hfirst, hsecond⟩
      · rw [← hkeep]
        exact ih hrest
      · rcases ih hrest with hlast | ⟨hnot, _⟩
        · exact .inr ⟨hfirst, hlast.trans hsecond⟩
        · rw [hsecond] at hnot
          cases hnot

/-- A block that waits for the same thing before and after a sequence does so all along. -/
theorem run_split {waiting : Waiting} {depth last : Nat} {first second : List Token}
    (h : run (waiting, depth) (first ++ second) = some (waiting, last)) :
    ∃ middle, run (waiting, depth) first = some (waiting, middle) ∧
      run (waiting, middle) second = some (waiting, last) := by
  rw [run_append] at h
  obtain ⟨⟨between, middle⟩, hfirst, hsecond⟩ := Option.bind_eq_some_iff.1 h
  have hbetween : between = waiting := by
    rcases run_eq_or hfirst with heq | ⟨hwaiting, hother⟩
    · exact heq
    · rcases run_eq_or hsecond with heq | ⟨hnot, _⟩
      · exact heq.symm
      · simp only at hother hnot
        rw [hother] at hnot
        cases hnot
  subst hbetween
  exact ⟨middle, hfirst, hsecond⟩

theorem isCondition_of_step {state next : Waiting × Nat} {token : Token}
    (h : step state token = some next) : next.1.isCondition = state.1.isCondition := by
  rcases step_eq_or h with heq | ⟨hfirst, hsecond⟩
  · rw [heq]
  · rw [hfirst, hsecond]
    rfl

theorem token_of_turn {depth after : Nat} {token : Token}
    (h : step (condition, depth) token = some (otherwise, after)) :
    ∃ start, token = .tag .otherwise start ∧ depth = 0 ∧ after = 0 := by
  unfold step at h
  split at h
  · cases h
  · split at h
    · cases depth <;> cases h
    · split at h
      · next hturn =>
        obtain ⟨hother, hzero⟩ := hturn
        cases h
        cases hzero
        obtain ⟨start, rfl⟩ := token.eq_of_isOtherwise hother
        exact ⟨start, rfl, rfl, rfl⟩
      · cases h

theorem step_eq_none_iff {state : Waiting × Nat} {token : Token} :
    step state token = none ↔
      token.isTag state.1.opens = false ∧ token.isTag state.1.closes = true ∧ state.2 = 0 := by
  unfold step
  split
  · next hopens => simp [hopens]
  · next hopens =>
    split
    · next hcloses => cases hdepth : state.2 <;> simp [hopens, hcloses]
    · next hcloses => split <;> simp [hcloses]

theorem eq_of_run_of_end {waiting : Waiting} {last : Waiting × Nat} {inside : List Token}
    {close : Token} (hwaiting : waiting ≠ condition) (hrun : run (waiting, 0) inside = some last)
    (hend : step last close = none) : last = (waiting, 0) := by
  refine Prod.ext ?_ (step_eq_none_iff.1 hend).2.2
  rcases run_eq_or hrun with heq | ⟨hcondition, _⟩
  · exact heq
  · exact absurd hcondition hwaiting

theorem exists_closing_of_step_eq_none {state : Waiting × Nat} {token : Token}
    (h : step state token = none) :
    ∃ name start, token = .tag (.closing name) start ∧ state.1.closes (.closing name) = true ∧
      state.2 = 0 := by
  obtain ⟨waiting, depth⟩ := state
  obtain ⟨_, hcloses, hdepth⟩ := step_eq_none_iff.1 h
  cases token with
  | text => cases hcloses
  | tag tag start =>
      cases tag with
      | closing name => exact ⟨name, start, rfl, hcloses, hdepth⟩
      | _ => cases waiting <;> cases hcloses

end Waiting

namespace Token

def cutAtEnd (state : Waiting × Nat) (tokens : List Token) : Option (List Token × List Token) :=
  cutAtClose state.1.opens state.1.closes state.2 tokens

theorem cutAtEnd_of_step_eq_none {state : Waiting × Nat} {token : Token} (rest : List Token)
    (h : Waiting.step state token = none) : cutAtEnd state (token :: rest) = some ([], rest) := by
  obtain ⟨hopens, hcloses, hdepth⟩ := Waiting.step_eq_none_iff.1 h
  simp [cutAtEnd, cutAtClose, hopens, hcloses, hdepth]

theorem cutAtEnd_of_step {state next : Waiting × Nat} {token : Token} (rest : List Token)
    (h : Waiting.step state token = some next) :
    cutAtEnd state (token :: rest) =
      (cutAtEnd next rest).map fun cut => (token :: cut.1, cut.2) := by
  have hopens : next.1.opens = state.1.opens := by
    simp only [Waiting.opens, Waiting.isCondition_of_step h]
  have hcloses : next.1.closes = state.1.closes := by
    simp only [Waiting.closes, Waiting.isCondition_of_step h]
  simp only [cutAtEnd, cutAtClose, hopens, hcloses]
  unfold Waiting.step at h
  split at h
  · next hopen =>
    cases h
    simp [hopen]
  · next hopen =>
    split at h
    · next hclose =>
      cases hdepth : state.2 with
      | zero => simp [hdepth] at h
      | succ depth =>
          simp only [hdepth, Option.some.injEq] at h
          subst h
          simp [hopen, hclose]
    · next hclose =>
      have hdepth : next.2 = state.2 := by
        split at h
        · next hzero =>
          cases h
          rw [hzero.2]
        · cases h
          rfl
      simp [hopen, hclose, hdepth]

/-- What the cut finds: the block has not ended before its closing tag. -/
theorem cutAtEnd_eq_some (state : Waiting × Nat) {tokens inside after : List Token}
    (h : cutAtEnd state tokens = some (inside, after)) :
    ∃ close last, tokens = inside ++ close :: after ∧ Waiting.run state inside = some last ∧
      Waiting.step last close = none := by
  induction tokens generalizing state inside with
  | nil => simp [cutAtEnd, cutAtClose] at h
  | cons token rest ih =>
      cases hstep : Waiting.step state token with
      | none =>
          rw [cutAtEnd_of_step_eq_none rest hstep] at h
          cases h
          exact ⟨token, state, rfl, rfl, hstep⟩
      | some next =>
          rw [cutAtEnd_of_step rest hstep] at h
          obtain ⟨⟨inner, later⟩, hcut, heq⟩ := Option.map_eq_some_iff.1 h
          cases heq
          obtain ⟨close, last, hrest, hrun, hend⟩ := ih _ hcut
          refine ⟨close, last, by rw [hrest]; rfl, ?_, hend⟩
          rw [Waiting.run_cons, hstep]
          exact hrun

theorem run_of_cutAtEnd_eq_none {state : Waiting × Nat} {tokens : List Token}
    (h : cutAtEnd state tokens = none) : ∃ last, Waiting.run state tokens = some last := by
  induction tokens generalizing state with
  | nil => exact ⟨state, rfl⟩
  | cons token rest ih =>
      cases hstep : Waiting.step state token with
      | none =>
          rw [cutAtEnd_of_step_eq_none rest hstep] at h
          cases h
      | some next =>
          rw [cutAtEnd_of_step rest hstep, Option.map_eq_none_iff] at h
          rw [Waiting.run_cons, hstep]
          exact ih h

theorem cutAtOtherwise_of_step {depth after : Nat} {token : Token} (rest : List Token)
    (h : Waiting.step (.condition, depth) token = some (.condition, after)) :
    cutAtOtherwise depth (token :: rest) =
      (token :: (cutAtOtherwise after rest).1, (cutAtOtherwise after rest).2) := by
  have hnot : ¬(depth = 0 ∧ token.isOtherwise = true) := by
    rintro ⟨rfl, hother⟩
    obtain ⟨start, rfl⟩ := token.eq_of_isOtherwise hother
    cases h
  have hafter : (if token.isTag Tag.opensCondition then depth + 1
      else if token.isTag Tag.closesCondition then depth - 1 else depth) = after := by
    simp only [Waiting.step, Waiting.opens, Waiting.closes, Waiting.isCondition, if_true] at h
    split at h
    · next hopens =>
      cases h
      rw [if_pos hopens]
    · next hopens =>
      rw [if_neg hopens]
      split at h
      · next hcloses =>
        rw [if_pos hcloses]
        cases depth <;> cases h
        rfl
      · next hcloses =>
        rw [if_neg hcloses]
        split at h <;> cases h
        rfl
  simp only [cutAtOtherwise, if_neg hnot, hafter]

/-- The `else` that splits a condition is the one at which its count turns to the second branch. -/
theorem cutAtOtherwise_of_run {depth : Nat} {tokens : List Token} {last : Waiting × Nat}
    (h : Waiting.run (.condition, depth) tokens = some last) :
    cutAtOtherwise depth tokens = (tokens, none) ∧ last.1 = .condition ∨
      ∃ first start other, cutAtOtherwise depth tokens = (first, some other) ∧
        tokens = first ++ .tag .otherwise start :: other ∧
        Waiting.run (.condition, depth) first = some (.condition, 0) ∧
        Waiting.run (.otherwise, 0) other = some last := by
  induction tokens generalizing depth with
  | nil =>
      cases h
      exact .inl ⟨rfl, rfl⟩
  | cons token rest ih =>
      obtain ⟨⟨waiting, after⟩, hstep, hrest⟩ := Option.bind_eq_some_iff.1 h
      rcases Waiting.step_eq_or hstep with hkeep | ⟨_, hturn⟩
      · cases hkeep
        rw [cutAtOtherwise_of_step rest hstep]
        rcases ih hrest with ⟨hcut, hlast⟩ | ⟨first, start, other, hcut, hall, hrun, hlast⟩
        · exact .inl ⟨by rw [hcut], hlast⟩
        · refine .inr ⟨token :: first, start, other, by rw [hcut], by rw [hall]; rfl, ?_, hlast⟩
          rw [Waiting.run_cons, hstep]
          exact hrun
      · cases hturn
        obtain ⟨start, rfl, rfl, rfl⟩ := Waiting.token_of_turn hstep
        exact .inr ⟨[], start, rest, rfl, rfl, rfl, hrest⟩

end Token

end PromptSheet.Template
