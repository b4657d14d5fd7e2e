import PromptSheet.Template.Parse

/-!
# Reading a template in one pass

A second reading of a token sequence, from left to right with a stack of open blocks. A tag acts on
the innermost blocks only: it closes the innermost block, opens its second branch, or finds that a
block of the other family stands in the way, which no later tag can put right. Nothing is counted
and no token is looked at twice.
-/

namespace PromptSheet.Template

inductive Frame where
  | condition (expression : String) (negated : Bool) (body : List Node)
      (otherwise : Option (List Node))
  | loop (collection : String) (body : List Node)

namespace Frame

def isCondition : Frame → Bool
  | condition .. => true
  | loop .. => false

def isLoop : Frame → Bool
  | condition .. => false
  | loop .. => true

def hasOtherwise : Frame → Bool
  | condition _ _ _ otherwise => otherwise.isSome
  | loop .. => false

/-- Nodes go to the branch that was opened last. -/
def add (nodes : List Node) : Frame → Frame
  | condition expression negated body none => condition expression negated (body ++ nodes) none
  | condition expression negated body (some other) =>
    condition expression negated body (some (other ++ nodes))
  | loop collection body => loop collection (body ++ nodes)

def node : Frame → Node
  | condition expression negated body otherwise => .condition expression negated body otherwise
  | loop collection body => .loop collection body

end Frame

/-- The open blocks, the innermost first, and the nodes outside of all blocks. -/
structure Frames where
  outer : List Node := []
  opened : List Frame := []

namespace Frames

def add (frames : Frames) (nodes : List Node) : Frames :=
  match frames.opened with
  | [] => { frames with outer := frames.outer ++ nodes }
  | innermost :: others => { frames with opened := innermost.add nodes :: others }

def push (frames : Frames) (frame : Frame) : Frames :=
  { frames with opened := frame :: frames.opened }

/-- Closes the innermost block if it is of the family. A block of the family that stands further out
cannot be closed any more; without one the tag means nothing. -/
def close (family : Frame → Bool) (frames : Frames) : Option Frames :=
  match frames.opened with
  | [] => some frames
  | innermost :: others =>
    if family innermost then some (({ frames with opened := others } : Frames).add [innermost.node])
    else if others.any family then none
    else some frames

/-- An `else` belongs to the innermost condition. It means nothing without one, or when that
condition has its second branch already. -/
def otherwise (frames : Frames) : Option Frames :=
  match frames.opened.find? Frame.isCondition with
  | none => some frames
  | some owner =>
    if owner.hasOtherwise then some frames
    else
      match frames.opened with
      | .condition expression negated body none :: others =>
        some { frames with opened := .condition expression negated body (some []) :: others }
      | _ => none

def step (frames : Frames) : Token → Option Frames
  | .text content => some (frames.add [.text content])
  | .tag (.opening .when expression) _ =>
    some (frames.push (.condition expression false [] none))
  | .tag (.opening .unless expression) _ =>
    some (frames.push (.condition expression true [] none))
  | .tag (.opening .each collection) _ => some (frames.push (.loop collection []))
  | .tag .otherwise _ => frames.otherwise
  | .tag (.closing name) _ =>
    if name = "if" ∨ name = "unless" then frames.close Frame.isCondition
    else if name = "each" then frames.close Frame.isLoop
    else some frames
  | .tag tag _ => some (frames.add (Node.ofLeaf? tag).toList)

def run (frames : Frames) (tokens : List Token) : Option Frames :=
  tokens.foldlM step frames

def finish (frames : Frames) : Option (List Node) :=
  if frames.opened.isEmpty then some frames.outer else none

def tree? (tokens : List Token) : Option (List Node) :=
  (run {} tokens).bind finish

@[simp]
theorem run_nil (frames : Frames) : frames.run [] = some frames := rfl

@[simp]
theorem run_cons (frames : Frames) (token : Token) (tokens : List Token) :
    frames.run (token :: tokens) = (frames.step token).bind fun next => next.run tokens := rfl

theorem run_append (frames : Frames) (first second : List Token) :
    frames.run (first ++ second) = (frames.run first).bind fun next => next.run second :=
  List.foldlM_append

theorem add_add (frames : Frames) (first second : List Node) :
    (frames.add first).add second = frames.add (first ++ second) := by
  obtain ⟨outer, _ | ⟨innermost, others⟩⟩ := frames
  · simp [add]
  · rcases innermost with ⟨_, _, _, _ | _⟩ | _ <;> simp [add, Frame.add]

@[simp]
theorem add_nil (frames : Frames) : frames.add [] = frames := by
  obtain ⟨outer, _ | ⟨innermost, others⟩⟩ := frames
  · simp [add]
  · rcases innermost with ⟨_, _, _, _ | _⟩ | _ <;> simp [add, Frame.add]

@[simp]
theorem push_add (frames : Frames) (frame : Frame) (nodes : List Node) :
    (frames.push frame).add nodes = frames.push (frame.add nodes) := rfl

theorem close_push {family : Frame → Bool} (frames : Frames) {frame : Frame}
    (h : family frame = true) :
    (frames.push frame).close family = some (frames.add [frame.node]) := by
  simp [close, push, h]

theorem otherwise_push (frames : Frames) (expression : String) (negated : Bool)
    (body : List Node) :
    (frames.push (.condition expression negated body none)).otherwise =
      some (frames.push (.condition expression negated body (some []))) :=
  rfl

end Frames

end PromptSheet.Template
