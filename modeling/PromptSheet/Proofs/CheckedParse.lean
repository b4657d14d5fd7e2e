import PromptSheet.Proofs.CheckedTokens
import PromptSheet.Proofs.OnePass

/-!
# No check fails

The reader that goes through the tokens by their indices counts the open blocks up and down, and then
cuts out what stands between the two indices at which it began and came to zero. Its counts are one
more than those of `Waiting`, so they never go below zero, and what it cuts out are the parts that
`Token.cutAtEnd` and `Token.cutAtOtherwise` leave. These are shorter than the whole, so that as many
calls as there are tokens bring the reader to its end, and no check has failed on its way.
-/

namespace PromptSheet.Template

namespace Checked

theorem subtract?_one (depth : Nat) : subtract? (depth + 1) 1 = some depth := by
  rw [subtract?, if_pos (Nat.le_add_left 1 depth), Nat.add_sub_cancel]

section Loops

variable {depth next : Nat} {token : Token} {last : Waiting × Nat} (index : Nat)
  (rest : List Lexeme)

theorem loopEnd?_closing (depth : Nat) (name : String) (offset : Nat) :
    loopEnd? depth index (.tag (.closing name) offset :: rest) =
      if Tag.closesLoop (.closing name) then
        (subtract? depth 1).bind fun depth =>
          if depth = 0 then some (some index) else loopEnd? depth (index + 1) rest
      else loopEnd? depth (index + 1) rest := rfl

theorem loopEnd?_of_step (h : Waiting.step (.loop, depth) token = some (.loop, next)) :
    loopEnd? (depth + 1) index (token.lexeme :: rest) = loopEnd? (next + 1) (index + 1) rest := by
  cases token with
  | text content =>
      cases h
      rfl
  | tag tag start =>
      cases tag with
      | opening block argument => cases block <;> cases h <;> rfl
      | closing name =>
          have hfamily : Waiting.loop.closes (.closing name) = Tag.closesLoop (.closing name) := rfl
          rw [Waiting.step_closing, hfamily] at h
          rw [Token.lexeme, loopEnd?_closing, subtract?_one]
          by_cases hcloses : Tag.closesLoop (.closing name) = true
          · rw [if_pos hcloses] at h ⊢
            cases depth <;> cases h
            rfl
          · rw [if_neg hcloses] at h ⊢
            cases h
            rfl
      | _ =>
          cases h
          rfl

theorem loopEnd?_of_end (h : Waiting.step (.loop, depth) token = none) :
    loopEnd? (depth + 1) index (token.lexeme :: rest) = some (some index) := by
  obtain ⟨name, start, rfl, hcloses, rfl⟩ := Waiting.exists_closing_of_step_eq_none h
  rw [Token.lexeme, loopEnd?_closing, subtract?_one]
  exact if_pos hcloses

theorem loopEnd?_of_run {tokens : List Token} (h : Waiting.run (.loop, depth) tokens = some last) :
    loopEnd? (depth + 1) index (tokens.map Token.lexeme ++ rest) =
      loopEnd? (last.2 + 1) (index + tokens.length) rest := by
  induction tokens generalizing depth index with
  | nil =>
      cases h
      rfl
  | cons token tokens ih =>
      obtain ⟨⟨waiting, next⟩, hstep, hrest⟩ := Option.bind_eq_some_iff.1 h
      have hloop : waiting = .loop := (Waiting.step_eq_or hstep).resolve_right nofun
      subst hloop
      rw [List.map_cons, List.cons_append, loopEnd?_of_step index _ hstep, ih _ hrest,
        List.length_cons, Nat.add_right_comm, Nat.add_assoc]

theorem loopEnd?_eq (tokens : List Token) :
    loopEnd? 1 0 (tokens.map Token.lexeme) =
      some ((Token.cutAtEnd (.loop, 0) tokens).map fun cut => cut.1.length) := by
  cases hcut : Token.cutAtEnd (.loop, 0) tokens with
  | none =>
      obtain ⟨last, hrun⟩ := Token.run_of_cutAtEnd_eq_none hcut
      have hend := loopEnd?_of_run 0 [] hrun
      rw [List.append_nil] at hend
      exact hend
  | some cut =>
      obtain ⟨inside, after⟩ := cut
      obtain ⟨close, last, rfl, hrun, hend⟩ := Token.cutAtEnd_eq_some _ hcut
      obtain rfl := Waiting.eq_of_run_of_end (show Waiting.loop ≠ .condition by decide) hrun hend
      rw [List.map_append, List.map_cons, loopEnd?_of_run 0 _ hrun, loopEnd?_of_end _ _ hend,
        Nat.zero_add]
      rfl

end Loops

section Conditions

variable {waiting : Waiting} {depth next : Nat} {split : Option Nat} {token : Token} (index : Nat)
  (rest : List Lexeme)

theorem conditionEnd?_closing (depth : Nat) (split : Option Nat) (name : String) (offset : Nat) :
    conditionEnd? depth split index (.tag (.closing name) offset :: rest) =
      if Tag.closesCondition (.closing name) then
        (subtract? depth 1).bind fun depth =>
          if depth = 0 then some (some (index, split))
          else conditionEnd? depth split (index + 1) rest
      else conditionEnd? depth split (index + 1) rest := rfl

/-- The split is known once the second branch has begun. -/
def Splits (waiting : Waiting) (split : Option Nat) : Prop :=
  waiting = .condition ∧ split = none ∨ waiting = .otherwise ∧ split ≠ none

theorem conditionEnd?_of_step (hsplit : Splits waiting split)
    (h : Waiting.step (waiting, depth) token = some (waiting, next)) :
    conditionEnd? (depth + 1) split index (token.lexeme :: rest) =
      conditionEnd? (next + 1) split (index + 1) rest := by
  cases token with
  | text content =>
      rw [Waiting.step_text] at h
      cases h
      rfl
  | tag tag start =>
      cases tag with
      | opening block argument =>
        obtain ⟨rfl, -⟩ | ⟨rfl, -⟩ := hsplit <;> cases block <;> cases h <;> rfl
      | closing name =>
          have hfamily : waiting.closes (.closing name) = Tag.closesCondition (.closing name) := by
            obtain ⟨rfl, -⟩ | ⟨rfl, -⟩ := hsplit <;> rfl
          rw [Waiting.step_closing, hfamily] at h
          rw [Token.lexeme, conditionEnd?_closing, subtract?_one]
          by_cases hcloses : Tag.closesCondition (.closing name) = true
          · rw [if_pos hcloses] at h ⊢
            cases depth <;> cases h
            rfl
          · rw [if_neg hcloses] at h ⊢
            cases h
            rfl
      | otherwise =>
        rw [Waiting.step_otherwise] at h
        obtain ⟨rfl, rfl⟩ | ⟨rfl, hsplit⟩ := hsplit
        · cases depth <;> cases h
          rfl
        · cases h
          cases split
          · exact absurd rfl hsplit
          · show (if Tag.otherwise = Tag.otherwise ∧ depth + 1 = 1 ∧ some _ = none then _ else _) = _
            rw [if_neg (by simp)]
      | _ =>
        obtain ⟨rfl, -⟩ | ⟨rfl, -⟩ := hsplit <;> cases h <;> rfl

theorem conditionEnd?_of_turn (offset : Nat) :
    conditionEnd? 1 none index (.tag .otherwise offset :: rest) =
      conditionEnd? 1 (some index) (index + 1) rest := rfl

theorem conditionEnd?_of_end (hwaiting : waiting.isCondition = true)
    (h : Waiting.step (waiting, depth) token = none) :
    conditionEnd? (depth + 1) split index (token.lexeme :: rest) = some (some (index, split)) := by
  obtain ⟨name, start, rfl, hcloses, rfl⟩ := Waiting.exists_closing_of_step_eq_none h
  rw [Token.lexeme, conditionEnd?_closing, subtract?_one]
  refine if_pos ?_
  rwa [Waiting.closes, hwaiting, if_pos rfl] at hcloses

theorem conditionEnd?_of_run_same {tokens : List Token} (hsplit : Splits waiting split)
    (h : Waiting.run (waiting, depth) tokens = some (waiting, next)) :
    conditionEnd? (depth + 1) split index (tokens.map Token.lexeme ++ rest) =
      conditionEnd? (next + 1) split (index + tokens.length) rest := by
  induction tokens generalizing depth index with
  | nil =>
      cases h
      rfl
  | cons token tokens ih =>
      have hall : Waiting.run (waiting, depth) ([token] ++ tokens) = some (waiting, next) := h
      obtain ⟨middle, htoken, hrest⟩ := Waiting.run_split hall
      obtain ⟨state, hstep, hstate⟩ := Option.bind_eq_some_iff.1 htoken
      cases hstate
      rw [List.map_cons, List.cons_append, conditionEnd?_of_step index _ hsplit hstep, ih _ hrest,
        List.length_cons, Nat.add_right_comm, Nat.add_assoc]

/-- Where a condition is split, if it is: the number of tokens in front of the `else`. -/
def splitOf (tokens : List Token) : Option Nat :=
  (Token.cutAtOtherwise 0 tokens).2.map fun _ => (Token.cutAtOtherwise 0 tokens).1.length

theorem conditionEnd?_of_run {tokens : List Token} {last : Waiting × Nat}
    (h : Waiting.run (.condition, 0) tokens = some last) :
    conditionEnd? 1 none 0 (tokens.map Token.lexeme ++ rest) =
      conditionEnd? (last.2 + 1) (splitOf tokens) tokens.length rest := by
  obtain ⟨waiting, next⟩ := last
  rcases Token.cutAtOtherwise_of_run h with ⟨hcut, hlast⟩ |
    ⟨first, start, other, hcut, rfl, hfirst, hother⟩
  · cases hlast
    rw [conditionEnd?_of_run_same 0 rest (.inl ⟨rfl, rfl⟩) h, splitOf, hcut, Nat.zero_add]
    rfl
  · have hlast : waiting = .otherwise := (Waiting.run_eq_or hother).resolve_right nofun
    subst hlast
    have hsplit : splitOf (first ++ .tag .otherwise start :: other) = some first.length := by
      rw [splitOf, hcut]
      rfl
    rw [hsplit, List.map_append, List.append_assoc,
      conditionEnd?_of_run_same 0 _ (.inl ⟨rfl, rfl⟩) hfirst, Nat.zero_add, Nat.zero_add,
      List.map_cons, List.cons_append, Token.lexeme, conditionEnd?_of_turn,
      conditionEnd?_of_run_same _ rest (.inr ⟨rfl, Option.some_ne_none _⟩) hother,
      List.length_append, List.length_cons, Nat.add_right_comm, Nat.add_assoc]

theorem conditionEnd?_eq (tokens : List Token) :
    conditionEnd? 1 none 0 (tokens.map Token.lexeme) =
      some ((Token.cutAtEnd (.condition, 0) tokens).map fun cut =>
        (cut.1.length, splitOf cut.1)) := by
  cases hcut : Token.cutAtEnd (.condition, 0) tokens with
  | none =>
      obtain ⟨last, hrun⟩ := Token.run_of_cutAtEnd_eq_none hcut
      have hend := conditionEnd?_of_run [] hrun
      rw [List.append_nil] at hend
      exact hend
  | some cut =>
      obtain ⟨inside, after⟩ := cut
      obtain ⟨close, ⟨waiting, depth⟩, rfl, hrun, hend⟩ := Token.cutAtEnd_eq_some _ hcut
      have hwaiting : waiting.isCondition = true := by
        rcases Waiting.run_eq_or hrun with heq | ⟨-, heq⟩ <;> cases heq <;> rfl
      obtain rfl : depth = 0 := (Waiting.step_eq_none_iff.1 hend).2.2
      rw [List.map_append, List.map_cons, conditionEnd?_of_run _ hrun,
        conditionEnd?_of_end _ _ hwaiting hend]
      rfl

theorem branches?_eq {tokens : List Token} {last : Waiting × Nat}
    (h : Waiting.run (.condition, 0) tokens = some last) :
    branches? (tokens.map Token.lexeme) (splitOf tokens) =
      some ((Token.cutAtOtherwise 0 tokens).1.map Token.lexeme,
        (Token.cutAtOtherwise 0 tokens).2.map (List.map Token.lexeme)) := by
  rcases Token.cutAtOtherwise_of_run h with ⟨hcut, -⟩ | ⟨first, start, other, hcut, rfl, -, -⟩
  · rw [splitOf, hcut]
    rfl
  · have hlength : (first.map Token.lexeme).length = first.length := List.length_map _
    rw [splitOf, hcut]
    simp only [Option.map_some, branches?, List.map_append, List.map_cons, take?_append hlength,
      drop?_append_cons _ hlength]
    rfl

end Conditions

/-! ### The tree

Each node takes one call, and the inside of a block takes calls of its own, all of them about fewer
tokens than the call that they come from.
-/

section Tree

variable {source : List Char} {calls : Nat} {tokens : List Lexeme} {index : Nat}

theorem nodesFrom?_end (h : index = tokens.length) :
    nodesFrom? source (calls + 1) tokens index = pure [] := by
  rw [nodesFrom?, if_neg (by omega)]

theorem nodesFrom?_text {content : String} (h : tokens[index]? = some (.text content)) :
    nodesFrom? source (calls + 1) tokens index = do
      let nodes ← nodesFrom? source calls tokens (index + 1)
      return .text content :: nodes := by
  rw [nodesFrom?, if_pos (List.getElem?_eq_some_iff.1 h).1, h]
  rfl

theorem nodesFrom?_tag {tag : Tag} {offset : Nat}
    (hclosed : ∀ block argument, tag ≠ .opening block argument)
    (h : tokens[index]? = some (.tag tag offset)) :
    nodesFrom? source (calls + 1) tokens index = do
      let nodes ← nodesFrom? source calls tokens (index + 1)
      return (Node.ofLeaf? tag).toList ++ nodes := by
  rw [nodesFrom?, if_pos (List.getElem?_eq_some_iff.1 h).1, h, lift_some_bind]
  cases tag with
  | opening block argument => exact absurd rfl (hclosed block argument)
  | _ =>
      simp only [leaf?_eq]
      rfl

theorem nodesFrom?_loop {collection : String} {offset : Nat}
    (h : tokens[index]? = some (.tag (.opening .each collection) offset)) :
    nodesFrom? source (calls + 1) tokens index = do
      match ← loopEnd? 1 0 (← drop? (index + 1) tokens) with
      | none => throw (.unclosedBlock .each (← lineAt? source offset))
      | some size =>
        let body ← nodesFrom? source calls (← slice? (index + 1) (index + 1 + size) tokens) 0
        let nodes ← nodesFrom? source calls tokens (index + size + 2)
        return .loop collection body :: nodes := by
  rw [nodesFrom?, if_pos (List.getElem?_eq_some_iff.1 h).1, h]
  rfl

theorem nodesFrom?_condition {block : Block} {expression : String} {offset : Nat}
    (hblock : block ≠ .each)
    (h : tokens[index]? = some (.tag (.opening block expression) offset)) :
    nodesFrom? source (calls + 1) tokens index = do
      match ← conditionEnd? 1 none 0 (← drop? (index + 1) tokens) with
      | none => throw (.unclosedBlock block (← lineAt? source offset))
      | some (size, split) =>
        let (first, other) ← branches? (← slice? (index + 1) (index + 1 + size) tokens) split
        let body ← nodesFrom? source calls first 0
        let otherwise ←
          match other with
          | none => pure none
          | some other => some <$> nodesFrom? source calls other 0
        let nodes ← nodesFrom? source calls tokens (index + size + 2)
        return .condition expression (block = .unless) body otherwise :: nodes := by
  rw [nodesFrom?, if_pos (List.getElem?_eq_some_iff.1 h).1, h]
  cases block with
  | each => exact absurd rfl hblock
  | _ => rfl

end Tree

end Checked

/-- The line of a tag is the one that is counted for its place. -/
def Token.IsPlaced (source : List Char) : Token → Prop
  | .text _ => True
  | .tag _ start => Checked.lineAt? source start.offset = some start.line

namespace Checked

/-- Wherever these tokens come last, they are read without a failed check, and as they are read on
their own. One call for each token and one more for the end are enough. -/
def ReadsAlike (source : List Char) (tokens : List Token) : Prop :=
  ∀ (before : List Token) (calls : Nat), tokens.length < calls →
    nodesFrom? source calls ((before ++ tokens).map Token.lexeme) before.length =
      done (Node.ofTokens tokens)

namespace ReadsAlike

variable {source : List Char} {tokens rest inside first other after : List Token}
  {token close : Token} {block : Block} {argument : String} {start : Position} {calls : Nat}

theorem getElem?_lexeme (before : List Token) :
    ((before ++ token :: rest).map Token.lexeme)[before.length]? = some token.lexeme := by
  simp

theorem drop?_lexemes (before : List Token) :
    drop? (before.length + 1) ((before ++ token :: rest).map Token.lexeme) =
      some (rest.map Token.lexeme) := by
  rw [List.map_append, List.map_cons]
  exact drop?_append_cons _ (List.length_map _)

theorem slice?_lexemes (before : List Token) :
    slice? (before.length + 1) (before.length + 1 + inside.length)
        ((before ++ token :: (inside ++ rest)).map Token.lexeme) = some (inside.map Token.lexeme) := by
  simp only [List.map_append, List.map_cons]
  rw [List.append_cons]
  exact slice?_append (by simp) (by simp)

/-- The first token takes up one call, so that there is one call less for the rest. -/
theorem of_succ (h : ∀ (before : List Token) (calls : Nat), tokens.length ≤ calls →
    nodesFrom? source (calls + 1) ((before ++ tokens).map Token.lexeme) before.length =
      done (Node.ofTokens tokens)) : ReadsAlike source tokens := by
  intro before calls hcalls
  obtain ⟨calls, rfl⟩ := Nat.exists_eq_add_one_of_ne_zero (Nat.ne_zero_of_lt hcalls)
  exact h before calls (Nat.le_of_lt_succ hcalls)

/-- The parts of a block are shorter than what it is cut out of. -/
theorem lengths_lt {state : Waiting × Nat}
    (hcut : Token.cutAtEnd state rest = some (inside, after))
    (hcalls : (token :: rest).length ≤ calls) : inside.length < calls ∧ after.length < calls := by
  have hlength : inside.length + after.length + 1 = rest.length := Token.length_of_cutAtClose hcut
  rw [List.length_cons] at hcalls
  omega

theorem of_whole (h : ReadsAlike source tokens) (hcalls : tokens.length < calls) :
    nodesFrom? source calls (tokens.map Token.lexeme) 0 = done (Node.ofTokens tokens) :=
  h [] calls hcalls

theorem after_token (h : ReadsAlike source rest) (before : List Token)
    (hcalls : rest.length < calls) :
    nodesFrom? source calls ((before ++ token :: rest).map Token.lexeme) (before.length + 1) =
      done (Node.ofTokens rest) := by
  rw [List.append_cons, ← h (before ++ [token]) calls hcalls, List.length_append,
    List.length_singleton]

theorem after_block (h : ReadsAlike source after) (before : List Token)
    (hcalls : after.length < calls) :
    nodesFrom? source calls ((before ++ token :: (inside ++ close :: after)).map Token.lexeme)
        (before.length + inside.length + 2) = done (Node.ofTokens after) := by
  have hfront : before ++ token :: (inside ++ close :: after) =
      (before ++ token :: inside) ++ close :: after := by simp
  rw [hfront, ← h.after_token (before ++ token :: inside) hcalls, List.length_append,
    List.length_cons, ← Nat.add_assoc]

theorem nil (source : List Char) : ReadsAlike source [] := by
  refine of_succ fun before calls _ => ?_
  rw [nodesFrom?_end (by simp), Node.ofTokens]
  rfl

theorem text (content : String) (h : ReadsAlike source rest) :
    ReadsAlike source (.text content :: rest) := by
  refine of_succ fun before calls hcalls => ?_
  rw [nodesFrom?_text (getElem?_lexeme before), h.after_token before hcalls, Node.ofTokens_text]
  cases Node.ofTokens rest <;> rfl

theorem tag {tag : Tag} (hclosed : ∀ block argument, tag ≠ .opening block argument)
    (h : ReadsAlike source rest) : ReadsAlike source (.tag tag start :: rest) := by
  refine of_succ fun before calls hcalls => ?_
  rw [nodesFrom?_tag hclosed (getElem?_lexeme before), h.after_token before hcalls,
    Node.ofTokens_tag hclosed]
  cases Node.ofTokens rest <;> rfl

theorem unclosed_loop (hplaced : lineAt? source start.offset = some start.line)
    (hcut : Token.cutAtEnd (.loop, 0) rest = none) :
    ReadsAlike source (.tag (.opening .each argument) start :: rest) := by
  refine of_succ fun before calls _ => ?_
  rw [nodesFrom?_loop (getElem?_lexeme before), drop?_lexemes, lift_some_bind, loopEnd?_eq, hcut,
    Option.map_none, lift_some_bind, Node.ofTokens_unclosed_loop hcut]
  simp only [hplaced]
  rfl

theorem loop (hcut : Token.cutAtEnd (.loop, 0) rest = some (inside, after))
    (hinside : ReadsAlike source inside) (hafter : ReadsAlike source after) :
    ReadsAlike source (.tag (.opening .each argument) start :: rest) := by
  refine of_succ fun before calls hcalls => ?_
  obtain ⟨close, last, hrest, -, -⟩ := Token.cutAtEnd_eq_some _ hcut
  obtain ⟨hshorter, hlater⟩ := lengths_lt hcut hcalls
  rw [nodesFrom?_loop (getElem?_lexeme before), drop?_lexemes, lift_some_bind, loopEnd?_eq, hcut,
    Option.map_some, lift_some_bind, Node.ofTokens_loop hcut, hrest]
  simp only [slice?_lexemes, lift_some_bind, hinside.of_whole hshorter,
    hafter.after_block _ hlater]
  cases Node.ofTokens inside <;> cases Node.ofTokens after <;> rfl

theorem unclosed_condition (hblock : block ≠ .each)
    (hplaced : lineAt? source start.offset = some start.line)
    (hcut : Token.cutAtEnd (.condition, 0) rest = none) :
    ReadsAlike source (.tag (.opening block argument) start :: rest) := by
  refine of_succ fun before calls _ => ?_
  rw [nodesFrom?_condition hblock (getElem?_lexeme before), drop?_lexemes, lift_some_bind,
    conditionEnd?_eq, hcut, Option.map_none, lift_some_bind,
    Node.ofTokens_unclosed_condition hblock hcut]
  simp only [hplaced]
  rfl

theorem nodesFrom?_block (hblock : block ≠ .each)
    (hcut : Token.cutAtEnd (.condition, 0) rest = some (inside, after))
    (hafter : ReadsAlike source after) (before : List Token) (hcalls : after.length < calls) :
    nodesFrom? source (calls + 1)
        ((before ++ .tag (.opening block argument) start :: rest).map Token.lexeme)
        before.length = do
      let body ← nodesFrom? source calls ((Token.cutAtOtherwise 0 inside).1.map Token.lexeme) 0
      let otherwise ←
        match (Token.cutAtOtherwise 0 inside).2.map (List.map Token.lexeme) with
        | none => pure none
        | some other => some <$> nodesFrom? source calls other 0
      let nodes ← done (Node.ofTokens after)
      return .condition argument (block = .unless) body otherwise :: nodes := by
  obtain ⟨close, last, hrest, hrun, -⟩ := Token.cutAtEnd_eq_some _ hcut
  rw [nodesFrom?_condition hblock (getElem?_lexeme before), drop?_lexemes, lift_some_bind,
    conditionEnd?_eq, hcut, Option.map_some, lift_some_bind, hrest]
  simp only [slice?_lexemes, lift_some_bind, branches?_eq hrun, hafter.after_block _ hcalls]

theorem condition (hblock : block ≠ .each)
    (hcut : Token.cutAtEnd (.condition, 0) rest = some (inside, after))
    (hsplit : Token.cutAtOtherwise 0 inside = (inside, none))
    (hinside : ReadsAlike source inside) (hafter : ReadsAlike source after) :
    ReadsAlike source (.tag (.opening block argument) start :: rest) := by
  refine of_succ fun before calls hcalls => ?_
  obtain ⟨hshorter, hlater⟩ := lengths_lt hcut hcalls
  rw [nodesFrom?_block hblock hcut hafter before hlater, hsplit, hinside.of_whole hshorter,
    Node.ofTokens_condition hblock hcut hsplit]
  cases Node.ofTokens inside <;> cases Node.ofTokens after <;> rfl

theorem either (hblock : block ≠ .each)
    (hcut : Token.cutAtEnd (.condition, 0) rest = some (inside, after))
    (hsplit : Token.cutAtOtherwise 0 inside = (first, some other))
    (hfirst : ReadsAlike source first) (hother : ReadsAlike source other)
    (hafter : ReadsAlike source after) :
    ReadsAlike source (.tag (.opening block argument) start :: rest) := by
  refine of_succ fun before calls hcalls => ?_
  obtain ⟨hshorter, hlater⟩ := lengths_lt hcut hcalls
  have hbranches := Token.length_cutAtOtherwise_le 0 inside
  rw [hsplit] at hbranches
  rw [nodesFrom?_block hblock hcut hafter before hlater, hsplit,
    hfirst.of_whole (hbranches.1.trans_lt hshorter), Option.map_some,
    Node.ofTokens_either hblock hcut hsplit]
  simp only [hother.of_whole ((hbranches.2 other rfl).trans_lt hshorter)]
  cases Node.ofTokens first <;> cases Node.ofTokens other <;> cases Node.ofTokens after <;> rfl

end ReadsAlike

theorem sublist_after (front : List Token) (token : Token) (after : List Token) :
    after.Sublist (front ++ token :: after) :=
  List.sublist_append_of_sublist_right (List.sublist_cons_self token after)

/-- The parts of a block are shorter than what it is cut out of. -/
theorem readsAlike {source : List Char} (tokens : List Token)
    (hplaced : ∀ token ∈ tokens, token.IsPlaced source) : ReadsAlike source tokens := by
  induction hlength : tokens.length using Nat.strong_induction_on generalizing tokens with
  | _ length ih =>
      subst hlength
      cases tokens with
      | nil => exact .nil source
      | cons token rest =>
          have hpart : ∀ part : List Token, part.Sublist rest → ReadsAlike source part :=
            fun part hsub => ih part.length (Nat.lt_succ_of_le hsub.length_le) part
              (fun token hmem => hplaced token (List.mem_cons_of_mem _ (hsub.subset hmem))) rfl
          cases token with
          | text content => exact .text content (hpart rest (List.Sublist.refl rest))
          | tag tag start =>
              have hline : lineAt? source start.offset = some start.line :=
                hplaced (.tag tag start) List.mem_cons_self
              cases tag with
              | opening block argument =>
                  by_cases hblock : block = .each
                  · subst hblock
                    cases hcut : Token.cutAtEnd (.loop, 0) rest with
                    | none => exact .unclosed_loop hline hcut
                    | some cut =>
                        obtain ⟨inside, after⟩ := cut
                        obtain ⟨close, last, rfl, -, -⟩ := Token.cutAtEnd_eq_some _ hcut
                        exact .loop hcut (hpart inside (List.sublist_append_left _ _))
                          (hpart after (sublist_after inside close after))
                  · cases hcut : Token.cutAtEnd (.condition, 0) rest with
                    | none => exact .unclosed_condition hblock hline hcut
                    | some cut =>
                        obtain ⟨inside, after⟩ := cut
                        obtain ⟨close, last, rfl, hrun, -⟩ := Token.cutAtEnd_eq_some _ hcut
                        have hinside : inside.Sublist (inside ++ close :: after) :=
                          List.sublist_append_left _ _
                        have hafter : ReadsAlike source after :=
                          hpart after (sublist_after inside close after)
                        rcases Token.cutAtOtherwise_of_run hrun with ⟨hsplit, -⟩ |
                          ⟨first, start, other, hsplit, rfl, -, -⟩
                        · exact .condition hblock hcut hsplit (hpart inside hinside) hafter
                        · exact .either hblock hcut hsplit
                            (hpart first ((List.sublist_append_left _ _).trans hinside))
                            (hpart other ((sublist_after first _ other).trans hinside)) hafter
              | _ => exact .tag nofun (hpart rest (List.Sublist.refl rest))

theorem isPlaced_tokensAfter (rest : List Char) (slices : List Slice) :
    ∀ before : List Char, ∀ token ∈ Slice.tokensAfter before slices,
      token.IsPlaced (before ++ (slices.flatMap Slice.source ++ rest)) := by
  induction slices with
  | nil => nofun
  | cons slice slices ih =>
      intro before token hmem
      rcases List.mem_cons.1 hmem with rfl | hlater
      · cases slice with
        | text content => trivial
        | tag triple inside found =>
            rw [Slice.token, Token.IsPlaced, offset_after]
            exact lineAt?_append before _
      · have hplaced := ih (before ++ slice.source) token hlater
        rwa [List.append_assoc, ← List.append_assoc slice.source] at hplaced

/-- **No check fails**, whatever the text is: no cut is out of bounds or inside a character, no
count goes below zero, and the reader comes to its end, with the result that the one has which takes
the text apart character by character. -/
theorem run_parse? (source : String) : (parse? source).run = some (parse source) := by
  obtain ⟨segments, hvalid, hsource⟩ := Segmentation.exists_isValid source.toList
  have hscan := Segmentation.scan_eq hvalid hsource
  have hlexemes : lexemesFrom? source.toList (Text.byteSize source.toList + 1) 0 =
      done ((scan source).outcome.map (List.map Token.lexeme)) := by
    rw [hscan, ← hsource]
    exact lexemesFrom?_slices [] hvalid (Nat.lt_succ_of_le (Slice.length_le_byteSize hvalid))
  have hplaced : ∀ token ∈ (scan source).tokens, token.IsPlaced source.toList := by
    rw [hscan, ← hsource]
    exact isPlaced_tokensAfter segments.ending.source segments.slices []
  show parse? source = done (parse source)
  rw [parse?, hlexemes, parse_eq, Scan.outcome]
  cases (scan source).failure with
  | some e => rfl
  | none =>
      show nodesFrom? _ ((scan source).tokens.map Token.lexeme).length.succ _ 0 = _
      exact (readsAlike _ hplaced).of_whole (by simp)

end Checked

end PromptSheet.Template
