import PromptSheet.Template.Inclusion
import PromptSheet.Template.Node
import PromptSheet.Template.Token

/-!
From tokens to the tree. The end of a block is found by counting: conditions are counted together,
whichever of their two words closes them, and loops are counted on their own, so a block sees only
the tags of its own family. What stands between its two tags is then read in the same way. A closing
tag or an `else` that no block claims leaves no trace in the tree.
-/

namespace PromptSheet.Template

namespace Token

def isTag (p : Tag → Bool) : Token → Bool
  | .text _ => false
  | .tag found _ => p found

def isOtherwise : Token → Bool
  | .tag .otherwise _ => true
  | _ => false

/-- Cuts at the closing tag of a block with `depth` further blocks of its family open inside it: the
tokens before that tag and those after it. -/
def cutAtClose (opens closes : Tag → Bool) : Nat → List Token → Option (List Token × List Token)
  | _, [] => none
  | depth, token :: rest =>
    if token.isTag opens then
      (cutAtClose opens closes (depth + 1) rest).map fun cut => (token :: cut.1, cut.2)
    else if token.isTag closes then
      match depth with
      | 0 => some ([], rest)
      | depth + 1 => (cutAtClose opens closes depth rest).map fun cut => (token :: cut.1, cut.2)
    else (cutAtClose opens closes depth rest).map fun cut => (token :: cut.1, cut.2)

/-- Cuts the inside of a condition at its first `else` that stands in no condition of its own. -/
def cutAtOtherwise : Nat → List Token → List Token × Option (List Token)
  | _, [] => ([], none)
  | depth, token :: rest =>
    if depth = 0 ∧ token.isOtherwise then ([], some rest)
    else
      let inner :=
        if token.isTag Tag.opensCondition then depth + 1
        else if token.isTag Tag.closesCondition then depth - 1
        else depth
      let cut := cutAtOtherwise inner rest
      (token :: cut.1, cut.2)

theorem length_of_cutAtClose {opens closes : Tag → Bool} {depth : Nat} {tokens : List Token}
    {cut : List Token × List Token} (h : cutAtClose opens closes depth tokens = some cut) :
    cut.1.length + cut.2.length + 1 = tokens.length := by
  induction tokens generalizing depth cut with
  | nil => simp [cutAtClose] at h
  | cons token rest ih =>
    unfold cutAtClose at h
    split at h
    · obtain ⟨inner, hinner, rfl⟩ := Option.map_eq_some_iff.1 h
      have := ih hinner
      simp only [List.length_cons]
      omega
    · split at h
      · cases depth with
        | zero =>
          simp only [Option.some.injEq] at h
          subst h
          simp
        | succ depth =>
          obtain ⟨inner, hinner, rfl⟩ := Option.map_eq_some_iff.1 h
          have := ih hinner
          simp only [List.length_cons]
          omega
      · obtain ⟨inner, hinner, rfl⟩ := Option.map_eq_some_iff.1 h
        have := ih hinner
        simp only [List.length_cons]
        omega

theorem length_cutAtOtherwise_le (depth : Nat) (tokens : List Token) :
    (cutAtOtherwise depth tokens).1.length ≤ tokens.length ∧
      ∀ other, (cutAtOtherwise depth tokens).2 = some other → other.length ≤ tokens.length := by
  induction tokens generalizing depth with
  | nil => simp [cutAtOtherwise]
  | cons token rest ih =>
    unfold cutAtOtherwise
    split
    · simp
    · simp only [List.length_cons, Nat.add_le_add_iff_right]
      exact ⟨(ih _).1, fun other h => Nat.le_succ_of_le ((ih _).2 other h)⟩

end Token

namespace Node

def ofLeaf? : Tag → Option Node
  | .slot name => some (.slot name)
  | .rawSlot name => some (.rawSlot name)
  | .comment content => some (.comment content)
  | .inclusion directive =>
    let read := readDirective directive.toList
    some (.inclusion read.1 read.2)
  | .opening _ _ => none
  | .otherwise => none
  | .closing _ => none

set_option linter.unusedVariables false in
def ofTokens : List Token → Except ParseError (List Node)
  | [] => .ok []
  | .text content :: rest => do
    let nodes ← ofTokens rest
    return .text content :: nodes
  | .tag (.opening .each collection) start :: rest =>
    match h : Token.cutAtClose Tag.opensLoop Tag.closesLoop 0 rest with
    | none => .error (.unclosedBlock .each start.line)
    | some (inside, after) => do
      let body ← ofTokens inside
      let nodes ← ofTokens after
      return .loop collection body :: nodes
  | .tag (.opening block expression) start :: rest =>
    match h : Token.cutAtClose Tag.opensCondition Tag.closesCondition 0 rest with
    | none => .error (.unclosedBlock block start.line)
    | some (inside, after) => do
      let body ← ofTokens (Token.cutAtOtherwise 0 inside).1
      let otherwise ←
        match hother : (Token.cutAtOtherwise 0 inside).2 with
        | none => pure none
        | some other => do
          let nodes ← ofTokens other
          pure (some nodes)
      let nodes ← ofTokens after
      return .condition expression (block = .unless) body otherwise :: nodes
  | .tag tag _ :: rest => do
    let nodes ← ofTokens rest
    return (ofLeaf? tag).toList ++ nodes
termination_by tokens => tokens.length
decreasing_by
  all_goals simp only [List.length_cons]
  all_goals try omega
  all_goals
    have hcut := Token.length_of_cutAtClose h
    simp only at hcut
    try omega
  · have := (Token.length_cutAtOtherwise_le 0 inside).1
    omega
  · have := (Token.length_cutAtOtherwise_le 0 inside).2 _ hother
    omega

end Node

/-- The tree of a template. A tag at fault anywhere in the text comes before a block without an end.
-/
def parse (source : String) : Except ParseError (List Node) :=
  match (scan source).failure with
  | some e => .error e
  | none => Node.ofTokens (scan source).tokens

end PromptSheet.Template
