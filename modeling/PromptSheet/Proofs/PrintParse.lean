import PromptSheet.Proofs.OnePass
import PromptSheet.Proofs.WrittenTag

/-!
# Reading back what was written

A tree that is written as the text of a template is read back as the same tree. The text is followed
by the scanner and by the pass with a stack of frames at once: a written node, wherever it stands,
takes the frames to the same frames with that node added.
-/

namespace PromptSheet.Template

namespace Node

def isText : Node → Bool
  | .text _ => true
  | .slot _ => false
  | .rawSlot _ => false
  | .condition .. => false
  | .loop .. => false
  | .inclusion .. => false
  | .comment _ => false

mutual

/-- The trees that lose nothing when they are written. Two texts side by side would be read as one.
-/
def IsPlain : Node → Prop
  | .text content => IsLiteral content.toList
  | .slot name => IsSlotName name.toList
  | .rawSlot name => IsName name.toList
  | .comment content => IsContent content.toList
  | .inclusion name parameters => IsWord name.toList ∧ ParametersPlain parameters
  | .loop collection body => IsName collection.toList ∧ AllPlain body
  | .condition expression _ body none => IsName expression.toList ∧ AllPlain body
  | .condition expression _ body (some other) =>
    IsName expression.toList ∧ AllPlain body ∧ AllPlain other

def AllPlain : List Node → Prop
  | [] => True
  | node :: rest =>
    IsPlain node ∧ AllPlain rest ∧ (node.isText = true → ∀ next ∈ rest.head?, next.isText = false)

end

mutual

def decidableIsPlain : (node : Node) → Decidable node.IsPlain
  | .text content => inferInstanceAs (Decidable (IsLiteral content.toList))
  | .slot name => inferInstanceAs (Decidable (IsSlotName name.toList))
  | .rawSlot name => inferInstanceAs (Decidable (IsName name.toList))
  | .comment content => inferInstanceAs (Decidable (IsContent content.toList))
  | .inclusion name parameters =>
    inferInstanceAs (Decidable (IsWord name.toList ∧ ParametersPlain parameters))
  | .loop collection body =>
    have := decidableAllPlain body
    inferInstanceAs (Decidable (IsName collection.toList ∧ AllPlain body))
  | .condition expression _ body none =>
    have := decidableAllPlain body
    inferInstanceAs (Decidable (IsName expression.toList ∧ AllPlain body))
  | .condition expression _ body (some other) =>
    have := decidableAllPlain body
    have := decidableAllPlain other
    inferInstanceAs (Decidable (IsName expression.toList ∧ AllPlain body ∧ AllPlain other))

def decidableAllPlain : (nodes : List Node) → Decidable (AllPlain nodes)
  | [] => isTrue trivial
  | node :: rest =>
    have := decidableIsPlain node
    have := decidableAllPlain rest
    inferInstanceAs (Decidable (IsPlain node ∧ AllPlain rest ∧
      (node.isText = true → ∀ next ∈ rest.head?, next.isText = false)))

end

instance (node : Node) : Decidable node.IsPlain :=
  decidableIsPlain node

instance (nodes : List Node) : Decidable (AllPlain nodes) :=
  decidableAllPlain nodes

end Node

/-- Wherever the source stands before `rest`, the pass over its tokens takes `frames` to `next`. -/
def Passes (source rest : List Char) (frames next : Frames) : Prop :=
  ∀ p : Position, ∃ tokens,
    scanFrom (.text []) p (source ++ rest) =
        (scanFrom (.text []) (p.advanceAll source) rest).after tokens ∧
      frames.run tokens = some next

namespace Passes

variable {first second content rest : List Char} {frames middle next : Frames}

theorem nil (rest : List Char) (frames : Frames) : Passes [] rest frames frames :=
  fun _ => ⟨[], rfl, rfl⟩

theorem append (hfirst : Passes first (second ++ rest) frames middle)
    (hsecond : Passes second rest middle next) : Passes (first ++ second) rest frames next := by
  intro p
  obtain ⟨before, hscanFirst, hrunFirst⟩ := hfirst p
  obtain ⟨after, hscanSecond, hrunSecond⟩ := hsecond (p.advanceAll first)
  refine ⟨before ++ after, ?_, ?_⟩
  · rw [List.append_assoc, hscanFirst, hscanSecond, Scan.after_after, advanceAll_append]
  · rw [Frames.run_append, hrunFirst]
    exact hrunSecond

theorem literal (hcontent : IsLiteral content) (hrest : EndsText rest) (frames : Frames) :
    Passes content rest frames (frames.add [.text (String.ofList content)]) :=
  fun p => ⟨_, scanFrom_literal p hcontent hrest, rfl⟩

theorem braced {found : Tag} (hcontent : IsBraceless content)
    (hfound : ∀ line, Tag.ofContent line content = .ok found)
    (hstep : ∀ start, frames.step (.tag found start) = some next) (rest : List Char) :
    Passes (braced content) rest frames next := by
  intro p
  refine ⟨_, scanFrom_braced p hcontent (hfound p.line), ?_⟩
  rw [Frames.run_cons, hstep]
  rfl

theorem opening (block : Block) {argument : String} {frame : Frame}
    (hargument : IsName argument.toList)
    (hstep : ∀ start, frames.step (.tag (.opening block argument) start) = some (frames.push frame))
    (rest : List Char) :
    Passes (Template.braced ('#' :: (block.keyword ++ ' ' :: argument.toList))) rest frames
      (frames.push frame) := by
  have hcontent : IsBraceless ('#' :: (block.keyword ++ ' ' :: argument.toList)) := by
    rw [isBraceless_cons, isBraceless_append, isBraceless_cons]
    exact ⟨by decide, Tag.isBraceless_keyword block, by decide, hargument.noBrace⟩
  refine braced hcontent (fun line => ?_) hstep rest
  rw [Tag.ofContent_opening line block hargument.trimmed hargument.nonempty, String.ofList_toList]

theorem closing (block : Block) {frame : Frame}
    (hstep : ∀ start, (frames.push frame).step (.tag (.closing (String.ofList block.keyword)) start) =
      some (frames.add [frame.node])) (rest : List Char) :
    Passes (Template.braced ('/' :: block.keyword)) rest (frames.push frame)
      (frames.add [frame.node]) := by
  have hcontent : IsBraceless ('/' :: block.keyword) := by
    rw [isBraceless_cons]
    exact ⟨by decide, Tag.isBraceless_keyword block⟩
  exact braced hcontent (fun line => Tag.ofContent_closing line block) hstep rest

end Passes

namespace Node

variable {rest : List Char}

theorem endsText_braced (content rest : List Char) : EndsText (braced content ++ rest) := by
  right
  exact ⟨content ++ ['}', '}'] ++ rest, by simp [braced]⟩

theorem endsText_print {node : Node} (h : node.isText = false) (rest : List Char) :
    EndsText (print node ++ rest) := by
  cases node with
  | text content => cases h
  | slot | rawSlot | comment | inclusion => exact endsText_braced _ rest
  | loop collection body =>
      rw [print, List.append_assoc, List.append_assoc]
      exact endsText_braced _ _
  | condition expression negated body otherwise =>
      cases otherwise with
      | none =>
          rw [print, List.append_assoc, List.append_assoc]
          exact endsText_braced _ _
      | some other =>
          rw [print, List.append_assoc, List.append_assoc, List.append_assoc, List.append_assoc]
          exact endsText_braced _ _

theorem endsText_printAll {node : Node} {nodes : List Node}
    (happart : node.isText = true → ∀ next ∈ nodes.head?, next.isText = false)
    (hrest : EndsText rest) (hnode : node.isText = true) : EndsText (printAll nodes ++ rest) := by
  cases nodes with
  | nil => exact hrest
  | cons next others =>
      rw [printAll, List.append_assoc]
      exact endsText_print (happart hnode next rfl) _

def conditionBlock (negated : Bool) : Block :=
  if negated then .unless else .when

theorem keyword_conditionBlock (negated : Bool) :
    (conditionBlock negated).keyword = conditionWord negated := by
  cases negated <;> rfl

theorem step_opening_conditionBlock (frames : Frames) (expression : String) (negated : Bool)
    (start : Position) :
    frames.step (.tag (.opening (conditionBlock negated) expression) start) =
      some (frames.push (.condition expression negated [] none)) := by
  cases negated <;> rfl

theorem step_closing_condition {closing : Block} (hclosing : closing ≠ .each) {frame : Frame}
    (h : frame.isCondition = true) (frames : Frames) (start : Position) :
    (frames.push frame).step (.tag (.closing (String.ofList closing.keyword)) start) =
      some (frames.add [frame.node]) := by
  rw [← Frames.close_push frames h]
  cases closing with
  | each => exact absurd rfl hclosing
  | _ => rfl

theorem step_closing_conditionBlock (frames : Frames) (negated : Bool) {frame : Frame}
    (h : frame.isCondition = true) (start : Position) :
    (frames.push frame).step
        (.tag (.closing (String.ofList (conditionBlock negated).keyword)) start) =
      some (frames.add [frame.node]) :=
  step_closing_condition (by cases negated <;> decide) h frames start

theorem passes_opening_condition (expression : String) (negated : Bool)
    (hexpression : IsName expression.toList) (rest : List Char) (frames : Frames) :
    Passes (braced (['#'] ++ conditionWord negated ++ [' '] ++ expression.toList)) rest frames
      (frames.push (.condition expression negated [] none)) := by
  have hsource : ['#'] ++ conditionWord negated ++ [' '] ++ expression.toList =
      '#' :: ((conditionBlock negated).keyword ++ ' ' :: expression.toList) := by
    simp [keyword_conditionBlock]
  rw [hsource]
  exact Passes.opening (conditionBlock negated) hexpression
    (step_opening_conditionBlock frames expression negated) rest

theorem passes_closing_condition (negated : Bool) (frame : Frame) (h : frame.isCondition = true)
    (rest : List Char) (frames : Frames) :
    Passes (braced (['/'] ++ conditionWord negated)) rest (frames.push frame)
      (frames.add [frame.node]) := by
  rw [← keyword_conditionBlock]
  exact Passes.closing (conditionBlock negated) (step_closing_conditionBlock frames negated h) rest

theorem passes_otherwise (expression : String) (negated : Bool) (body : List Node)
    (rest : List Char) (frames : Frames) :
    Passes (braced ['e', 'l', 's', 'e']) rest
      (frames.push (.condition expression negated body none))
      (frames.push (.condition expression negated body (some []))) := by
  have hstep : ∀ start, (frames.push (.condition expression negated body none)).step
      (.tag .otherwise start) = some (frames.push (.condition expression negated body (some []))) :=
    fun _ => Frames.otherwise_push frames expression negated body
  exact Passes.braced (by decide) Tag.ofContent_otherwise hstep rest

theorem passes_inclusion {name : String} {parameters : List (String × String)}
    (hname : IsWord name.toList) (hparameters : ParametersPlain parameters) (rest : List Char)
    (frames : Frames) :
    Passes (braced (['>', ' '] ++ name.toList ++ parameters.flatMap printParameter)) rest frames
      (frames.add [.inclusion name parameters]) := by
  have hdirective : name.toList ++ parameters.flatMap printParameter ≠ [] := by
    simp [hname.nonempty]
  have hcontent : IsBraceless
      ('>' :: ' ' :: (name.toList ++ parameters.flatMap printParameter)) := by
    rw [isBraceless_cons, isBraceless_cons, isBraceless_append]
    exact ⟨by decide, by decide, hname.noBrace, isBraceless_parameters hparameters⟩
  refine Passes.braced hcontent
    (fun line => Tag.ofContent_inclusion line (isTrimmed_directive hname parameters) hdirective)
    (fun start => ?_) rest
  simp [Frames.step, ofLeaf?, readDirective_print hname hparameters]

mutual

theorem passes_print (node : Node) (h : node.IsPlain) (rest : List Char)
    (hrest : node.isText = true → EndsText rest) (frames : Frames) :
    Passes (print node) rest frames (frames.add [node]) := by
  match node with
  | .text content =>
      have hpass := Passes.literal h (hrest rfl) frames
      rwa [String.ofList_toList] at hpass
  | .slot name =>
      have hfound : ∀ line, Tag.ofContent line name.toList = .ok (.slot name) := by
        intro line
        rw [Tag.ofContent_slot line h, String.ofList_toList]
      exact Passes.braced h.noBrace hfound (fun _ => rfl) rest
  | .rawSlot name =>
      intro p
      refine ⟨_, scanFrom_braced_raw p h.noBrace, ?_⟩
      rw [h.trimmed.trim_eq, String.ofList_toList]
      rfl
  | .comment content =>
      have hfound : ∀ line, Tag.ofContent line ('!' :: ' ' :: content.toList) =
          .ok (.comment content) := by
        intro line
        rw [Tag.ofContent_comment line h.trimmed, String.ofList_toList]
      have hcontent : IsBraceless ('!' :: ' ' :: content.toList) := by
        rw [isBraceless_cons, isBraceless_cons]
        exact ⟨by decide, by decide, h.noBrace⟩
      exact Passes.braced hcontent hfound (fun _ => rfl) rest
  | .inclusion name parameters =>
      obtain ⟨hname, hparameters⟩ := h
      exact passes_inclusion hname hparameters rest frames
  | .loop collection body =>
      obtain ⟨hcollection, hbody⟩ := h
      have hopen : Passes (braced (['#', 'e', 'a', 'c', 'h', ' '] ++ collection.toList))
          (printAll body ++ (braced ['/', 'e', 'a', 'c', 'h'] ++ rest)) frames
          (frames.push (.loop collection [])) :=
        Passes.opening .each hcollection (fun _ => rfl) _
      have hinside := passes_printAll body hbody (braced ['/', 'e', 'a', 'c', 'h'] ++ rest)
        (endsText_braced _ _) (frames.push (.loop collection []))
      have hclose : Passes (braced ['/', 'e', 'a', 'c', 'h']) rest
          (frames.push (.loop collection body)) (frames.add [.loop collection body]) :=
        Passes.closing .each (fun _ => rfl) rest
      exact (hopen.append hinside).append hclose
  | .condition expression negated body none =>
      obtain ⟨hexpression, hbody⟩ := h
      have hopen := passes_opening_condition expression negated hexpression
        (printAll body ++ (braced (['/'] ++ conditionWord negated) ++ rest)) frames
      have hinside := passes_printAll body hbody (braced (['/'] ++ conditionWord negated) ++ rest)
        (endsText_braced _ _) (frames.push (.condition expression negated [] none))
      have hclose := passes_closing_condition negated (.condition expression negated body none) rfl
        rest frames
      exact (hopen.append hinside).append hclose
  | .condition expression negated body (some other) =>
      obtain ⟨hexpression, hbody, hother⟩ := h
      have hopen := passes_opening_condition expression negated hexpression
      have hinside := passes_printAll body hbody
        (braced ['e', 'l', 's', 'e'] ++
          (printAll other ++ (braced (['/'] ++ conditionWord negated) ++ rest)))
        (endsText_braced _ _) (frames.push (.condition expression negated [] none))
      have helse := passes_otherwise expression negated body
        (printAll other ++ (braced (['/'] ++ conditionWord negated) ++ rest)) frames
      have hsecond := passes_printAll other hother (braced (['/'] ++ conditionWord negated) ++ rest)
        (endsText_braced _ _) (frames.push (.condition expression negated body (some [])))
      have hclose := passes_closing_condition negated
        (.condition expression negated body (some other)) rfl rest frames
      exact ((((hopen _ _).append hinside).append helse).append hsecond).append hclose

theorem passes_printAll (nodes : List Node) (h : AllPlain nodes) (rest : List Char)
    (hrest : EndsText rest) (frames : Frames) :
    Passes (printAll nodes) rest frames (frames.add nodes) := by
  match nodes with
  | [] =>
      rw [printAll, Frames.add_nil]
      exact Passes.nil rest frames
  | node :: others =>
      obtain ⟨hnode, hothers, happart⟩ := h
      have hfirst := passes_print node hnode (printAll others ++ rest)
        (endsText_printAll happart hrest) frames
      have hsecond := passes_printAll others hothers rest hrest (frames.add [node])
      rw [Frames.add_add] at hsecond
      exact hfirst.append hsecond

end

end Node

/-- A source over whose tokens the pass goes from no nodes to these. -/
theorem scan_of_passes {source : List Char} {nodes : List Node}
    (h : Passes source [] {} (Frames.add {} nodes)) :
    (scan (String.ofList source)).failure = none ∧
      Frames.tree? (scan (String.ofList source)).tokens = some nodes := by
  obtain ⟨tokens, hscan, hrun⟩ := h {}
  have hscan : scan (String.ofList source) = ⟨tokens, none⟩ := by
    rw [scan, String.toList_ofList, ← List.append_nil source, hscan]
    simp [scanFrom, Mode.finish, Token.ofSeen, Scan.after]
  rw [hscan]
  refine ⟨rfl, ?_⟩
  rw [Frames.tree?, hrun]
  rfl

/-- The tokens of a written tree, and what one pass makes of them. -/
theorem scan_print {nodes : List Node} (h : Node.AllPlain nodes) :
    (scan (print nodes)).failure = none ∧
      Frames.tree? (scan (print nodes)).tokens = some nodes :=
  scan_of_passes (Node.passes_printAll nodes h [] (.inl rfl) {})

/-- **Reading a written tree gives the tree back.** -/
theorem parse_print (nodes : List Node) (h : Node.AllPlain nodes) :
    parse (print nodes) = .ok nodes :=
  parse_eq_ok_iff.2 (scan_print h)

def specimen : List Node :=
  [.comment "", .text "a \x7b b",
    .condition "c.d" true [.slot "e f", .condition "g" false [] (some [])] none,
    .loop "h" [.rawSlot "#i", .condition "j" false [.text "\n"] (some [.text "\x7d"])],
    .inclusion "k=l" [("m", "n = 'o'"), ("\"", "")]]

theorem parse_print_specimen :
    Node.AllPlain specimen ∧ parse (print specimen) = .ok specimen := by
  have hplain : Node.AllPlain specimen := by decide
  exact ⟨hplain, parse_print specimen hplain⟩

end PromptSheet.Template
