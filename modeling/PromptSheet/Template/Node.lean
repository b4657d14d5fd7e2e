/-!
The tree of a template: what each text and tag becomes once every block has found its end.
-/

namespace PromptSheet.Template

inductive Node where
  | text (content : String)
  | slot (name : String)
  | rawSlot (name : String)
  /-- Shows `body` if the expression holds (or, negated, if it does not), and otherwise the other
  branch, when there is one. -/
  | condition (expression : String) (negated : Bool) (body : List Node)
      (otherwise : Option (List Node))
  | loop (collection : String) (body : List Node)
  | inclusion (name : String) (parameters : List (String × String))
  | comment (content : String)
deriving Repr

namespace Node

def lines (texts : List String) : Node :=
  .text (String.join (texts.map (· ++ "\n")))

def when (expression : String) (body : List Node) : Node :=
  .condition expression false body none

def whenNot (expression : String) (body : List Node) : Node :=
  .condition expression true body none

def either (expression : String) (body other : List Node) : Node :=
  .condition expression false body (some other)

-- No handler derives equality for a type that has lists of itself in it.
mutual

def beq : Node → Node → Bool
  | .text content, .text content' => content == content'
  | .slot name, .slot name' => name == name'
  | .rawSlot name, .rawSlot name' => name == name'
  | .condition e negated body none, .condition e' negated' body' none =>
    e == e' && negated == negated' && beqAll body body'
  | .condition e negated body (some other), .condition e' negated' body' (some other') =>
    e == e' && negated == negated' && beqAll body body' && beqAll other other'
  | .loop collection body, .loop collection' body' => collection == collection' && beqAll body body'
  | .inclusion name parameters, .inclusion name' parameters' =>
    name == name' && parameters == parameters'
  | .comment content, .comment content' => content == content'
  | _, _ => false

def beqAll : List Node → List Node → Bool
  | [], [] => true
  | node :: rest, node' :: rest' => beq node node' && beqAll rest rest'
  | _, _ => false

end

mutual

theorem beq_iff (node other : Node) : beq node other = true ↔ node = other := by
  cases node with
  | condition e negated body otherwise =>
      cases other with
      | condition e' negated' body' otherwise' =>
          cases otherwise <;> cases otherwise' <;> simp [beq, beqAll_iff, and_assoc]
      | _ => cases otherwise <;> simp [beq]
  | loop collection body => cases other <;> simp [beq, beqAll_iff body]
  | _ => cases other <;> simp [beq]

theorem beqAll_iff (nodes others : List Node) : beqAll nodes others = true ↔ nodes = others := by
  cases nodes with
  | nil => cases others <;> simp [beqAll]
  | cons node rest => cases others <;> simp [beqAll, beq_iff node, beqAll_iff rest]

end

instance : DecidableEq Node := fun node other =>
  decidable_of_decidable_of_iff (beq_iff node other)

mutual

def any (p : Node → Bool) : Node → Bool
  | .condition e negated body none => p (.condition e negated body none) || anyOf p body
  | .condition e negated body (some other) =>
    p (.condition e negated body (some other)) || anyOf p body || anyOf p other
  | .loop collection body => p (.loop collection body) || anyOf p body
  | .text content => p (.text content)
  | .slot name => p (.slot name)
  | .rawSlot name => p (.rawSlot name)
  | .inclusion name parameters => p (.inclusion name parameters)
  | .comment content => p (.comment content)

def anyOf (p : Node → Bool) : List Node → Bool
  | [] => false
  | node :: rest => any p node || anyOf p rest

end

mutual

def inclusions : Node → List String
  | .inclusion name _ => [name]
  | .condition _ _ body none => inclusionsOf body
  | .condition _ _ body (some other) => inclusionsOf body ++ inclusionsOf other
  | .loop _ body => inclusionsOf body
  | .text _ => []
  | .slot _ => []
  | .rawSlot _ => []
  | .comment _ => []

def inclusionsOf : List Node → List String
  | [] => []
  | node :: rest => inclusions node ++ inclusionsOf rest

end

end Node

end PromptSheet.Template
