import PromptSheet.Proofs.ReadableTree
import PromptSheet.Proofs.RenderingLaws

/-!
# Texts side by side

Joining the texts that stand side by side in a tree makes another tree that a source can be read as,
and shows nothing else than before.
-/

namespace PromptSheet.Template

namespace Node

def consJoined : Node → List Node → List Node
  | .text first, .text second :: rest => .text (first ++ second) :: rest
  | node, rest => node :: rest

mutual

def joinInside : Node → Node
  | .condition expression negated body none =>
    .condition expression negated (joinTexts body) none
  | .condition expression negated body (some other) =>
    .condition expression negated (joinTexts body) (some (joinTexts other))
  | .loop collection body => .loop collection (joinTexts body)
  | .text content => .text content
  | .slot name => .slot name
  | .rawSlot name => .rawSlot name
  | .inclusion name parameters => .inclusion name parameters
  | .comment content => .comment content

/-- Makes one text of texts that stand side by side, at every depth. -/
def joinTexts : List Node → List Node
  | [] => []
  | node :: rest => consJoined (joinInside node) (joinTexts rest)

end

section Joining

variable {followed : Bool} {node : Node} {nodes rest : List Node}

theorem consJoined_cases (node : Node) (rest : List Node) :
    (consJoined node rest = node :: rest ∧
      (node.isText = true → ∀ next ∈ rest.head?, next.isText = false)) ∨
    ∃ first second more, node = .text first ∧ rest = .text second :: more ∧
      consJoined node rest = .text (first ++ second) :: more := by
  unfold consJoined
  split
  · next first second more => exact .inr ⟨first, second, more, rfl, rfl, rfl⟩
  · next happart =>
    refine .inl ⟨rfl, fun hnode next hnext => ?_⟩
    obtain ⟨others, rfl⟩ := List.head?_eq_some_iff.1 hnext
    cases node <;> cases next <;> first
      | rfl
      | exact (happart _ _ _ rfl rfl).elim
      | cases hnode

theorem consJoined_ne_nil (node : Node) (rest : List Node) : consJoined node rest ≠ [] := by
  obtain ⟨h, _⟩ | ⟨_, _, _, _, _, h⟩ := consJoined_cases node rest <;> simp [h]

theorem joinTexts_eq_nil_iff : joinTexts nodes = [] ↔ nodes = [] := by
  cases nodes with
  | nil => simp [joinTexts]
  | cons node rest => simp [joinTexts, consJoined_ne_nil]

theorem isText_joinInside (node : Node) : (joinInside node).isText = node.isText := by
  cases node with
  | condition expression negated body otherwise => cases otherwise <;> rw [joinInside] <;> rfl
  | text | slot | rawSlot | loop | inclusion | comment => rw [joinInside] <;> rfl

theorem isReadable_join {first second : String} (hfirst : (Node.text first).IsReadable true)
    (hsecond : (Node.text second).IsReadable followed) :
    (Node.text (first ++ second)).IsReadable followed := by
  obtain ⟨hne, hopening, hlast⟩ := hfirst
  obtain ⟨hne', hopening', hlast'⟩ := hsecond
  simp only [IsReadable, String.toList_append]
  refine ⟨by simp [hne], not_doubled_append hopening hopening' fun h => hlast rfl h.1, fun h => ?_⟩
  rw [List.getLast?_append, Option.or_of_isSome (List.getLast?_isSome.2 hne')]
  exact hlast' h

theorem allReadable_consJoined (hnode : node.IsReadable (followed || !rest.isEmpty))
    (hrest : AllReadable followed rest) : AllReadable followed (consJoined node rest) := by
  obtain ⟨h, _⟩ | ⟨first, second, more, rfl, rfl, h⟩ := consJoined_cases node rest
  · rw [h]
    exact ⟨hnode, hrest⟩
  · rw [h]
    have hfollowed : (followed || !(Node.text second :: more).isEmpty) = true := by simp
    rw [hfollowed] at hnode
    exact ⟨isReadable_join hnode hrest.1, hrest.2⟩

mutual

theorem isReadable_joinInside (node : Node) (followed : Bool) (h : node.IsReadable followed) :
    (joinInside node).IsReadable followed := by
  match node with
  | .condition expression negated body none =>
      exact ⟨h.1, allReadable_joinTexts body true h.2⟩
  | .condition expression negated body (some other) =>
      exact ⟨h.1, allReadable_joinTexts body true h.2.1, allReadable_joinTexts other true h.2.2⟩
  | .loop collection body => exact ⟨h.1, allReadable_joinTexts body true h.2⟩
  | .text _ | .slot _ | .rawSlot _ | .inclusion _ _ | .comment _ => exact h

theorem allReadable_joinTexts (nodes : List Node) (followed : Bool)
    (h : AllReadable followed nodes) : AllReadable followed (joinTexts nodes) := by
  match nodes with
  | [] => exact h
  | node :: rest =>
      have hempty : (joinTexts rest).isEmpty = rest.isEmpty := by
        rw [Bool.eq_iff_iff, List.isEmpty_iff, List.isEmpty_iff, joinTexts_eq_nil_iff]
      refine allReadable_consJoined ?_ (allReadable_joinTexts rest followed h.2)
      rw [hempty]
      exact isReadable_joinInside node _ h.1

end

theorem renderAll_consJoined (incl : Include) (store : Store) (node : Node) (rest : List Node) :
    renderAll incl (consJoined node rest) store =
      (render incl node store >> renderAll incl rest store) := by
  obtain ⟨h, _⟩ | ⟨first, second, more, rfl, rfl, h⟩ := consJoined_cases node rest
  · rw [h, renderAll_cons]
  · rw [h]
    simp [render, Rendering.ofText_append, Rendering.andThen_assoc]

mutual

theorem render_joinInside (incl : Include) (node : Node) (store : Store) :
    render incl (joinInside node) store = render incl node store := by
  match node with
  | .condition expression negated body none =>
      simp only [joinInside, render, renderAll_joinTexts incl body]
  | .condition expression negated body (some other) =>
      simp only [joinInside, render, renderAll_joinTexts incl body, renderAll_joinTexts incl other]
  | .loop collection body =>
      have hbody : renderAll incl (joinTexts body) = renderAll incl body :=
        funext fun store => renderAll_joinTexts incl body store
      simp only [joinInside, render, hbody]
  | .text _ | .slot _ | .rawSlot _ | .inclusion _ _ | .comment _ => rw [joinInside]

/-- One text shows what texts side by side show. -/
theorem renderAll_joinTexts (incl : Include) (nodes : List Node) (store : Store) :
    renderAll incl (joinTexts nodes) store = renderAll incl nodes store := by
  match nodes with
  | [] => rw [joinTexts]
  | node :: rest =>
      rw [joinTexts, renderAll_consJoined, render_joinInside incl node store,
        renderAll_joinTexts incl rest store, renderAll_cons]

end

end Joining

end Node

end PromptSheet.Template
