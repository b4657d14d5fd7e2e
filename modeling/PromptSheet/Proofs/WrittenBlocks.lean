import PromptSheet.Proofs.Concatenation
import PromptSheet.Proofs.PrintParse

/-!
# Blocks around templates

A template in which every `else` and every closing tag belongs to a block of its own can stand inside a
block. No count of the blocks around it ends or turns within it, whatever else it holds, so it leaves
there the nodes that it reads as on its own. What is written around it then decides when it shows.
-/

namespace PromptSheet.Template

/-- The block that the tag ends, or splits, was opened before it: more of these blocks have been
opened than closed. -/
def Token.IsOwned (before : List Token) (token : Token) : Prop :=
  (token.isOtherwise = true ∨ token.isTag Tag.closesCondition = true →
    before.countP (isTag Tag.closesCondition) < before.countP (isTag Tag.opensCondition)) ∧
  (token.isTag Tag.closesLoop = true →
    before.countP (isTag Tag.closesLoop) < before.countP (isTag Tag.opensLoop))

def HasNoStrays (tokens : List Token) : Prop :=
  ∀ i (h : i < tokens.length), tokens[i].IsOwned (tokens.take i)

instance (before : List Token) (token : Token) : Decidable (token.IsOwned before) :=
  inferInstanceAs (Decidable ((_ → _) ∧ (_ → _)))

instance (tokens : List Token) : Decidable (HasNoStrays tokens) :=
  inferInstanceAs (Decidable (∀ i (_ : i < tokens.length), _))

section Counts

variable {tokens before : List Token} {token : Token} {waiting : Waiting} {depth last : Nat}

theorem HasNoStrays.of_concat (h : HasNoStrays (before ++ [token])) :
    HasNoStrays before ∧ token.IsOwned before := by
  refine ⟨fun i hi => ?_, ?_⟩
  · have howned := h i (by simp; omega)
    rwa [List.getElem_append_left hi, List.take_append_of_le_length hi.le] at howned
  · simpa using h before.length (by simp)

theorem Token.IsOwned.lt (h : token.IsOwned before)
    (hends : token.isTag waiting.closes = true ∨ waiting = .condition ∧ token.isOtherwise = true) :
    before.countP (isTag waiting.closes) < before.countP (isTag waiting.opens) := by
  cases waiting with
  | loop => exact h.2 (hends.resolve_right (by simp))
  | condition => exact h.1 (hends.symm.imp_left And.right)
  | otherwise => exact h.1 (.inr (hends.resolve_right (by simp)))

theorem Token.isTag_closes_of_opens (h : token.isTag waiting.opens = true) :
    token.isTag waiting.closes = false := by
  cases token with
  | text => rfl
  | tag tag start =>
      cases tag with
      | opening => cases waiting <;> rfl
      | _ => cases waiting <;> cases h

/-- The count is how many blocks have been opened more than closed, and a tag of its own block finds one
of these open. -/
theorem Waiting.exists_step_of_isOwned (h : token.IsOwned before)
    (hdepth : last + before.countP (Token.isTag waiting.closes) =
      depth + before.countP (Token.isTag waiting.opens)) :
    ∃ next, step (waiting, last) token = some (waiting, next) ∧
      next + [token].countP (Token.isTag waiting.closes) =
        last + [token].countP (Token.isTag waiting.opens) := by
  by_cases hopens : token.isTag waiting.opens = true
  · exact ⟨last + 1, by simp [step, hopens], by simp [hopens, Token.isTag_closes_of_opens hopens]⟩
  by_cases hcloses : token.isTag waiting.closes = true
  · have hlt := h.lt (.inl hcloses)
    obtain ⟨next, rfl⟩ : ∃ next, last = next + 1 := Nat.exists_eq_add_one_of_ne_zero (by omega)
    exact ⟨next, by simp [step, hopens, hcloses], by simp [hopens, hcloses]⟩
  · have hstays : ¬(token.isOtherwise = true ∧ (waiting, last) = (.condition, 0)) := by
      rintro ⟨hotherwise, hstate⟩
      obtain ⟨rfl, rfl⟩ := Prod.mk.inj hstate
      have hlt := h.lt (.inr ⟨rfl, hotherwise⟩)
      omega
    exact ⟨last, by simp only [step, hopens, hcloses, hstays, if_false, Bool.false_eq_true],
      by simp [hopens, hcloses]⟩

theorem HasNoStrays.exists_run (h : HasNoStrays tokens) (waiting : Waiting) (depth : Nat) :
    ∃ last, Waiting.run (waiting, depth) tokens = some (waiting, last) ∧
      last + tokens.countP (Token.isTag waiting.closes) =
        depth + tokens.countP (Token.isTag waiting.opens) := by
  induction tokens using List.reverseRecOn with
  | nil => exact ⟨depth, rfl, rfl⟩
  | append_singleton before token ih =>
      obtain ⟨hbefore, howned⟩ := h.of_concat
      obtain ⟨last, hrun, hlast⟩ := ih hbefore
      obtain ⟨next, hstep, hnext⟩ := Waiting.exists_step_of_isOwned howned hlast
      refine ⟨next, ?_, ?_⟩
      · rw [Waiting.run_append, hrun, Option.bind_some, Waiting.run_cons, hstep]
        rfl
      · rw [List.countP_append, List.countP_append]
        omega

theorem HasNoStrays.spares (h : HasNoStrays tokens) (frames : Frames) : frames.Spares tokens := by
  intro above waiting below _
  obtain ⟨last, hrun, -⟩ := h.exists_run waiting (waiting.depthIn above)
  exact ⟨last, hrun⟩

end Counts

/-- A source that can stand between the tags of a block. -/
structure IsPart (source : String) (nodes : List Node) : Prop where
  parse_eq : parse source = .ok nodes
  last : source.toList.getLast? ≠ some '{'
  noStrays : HasNoStrays (scan source).tokens

section Parts

variable {source : String} {nodes : List Node} {slices : List Slice} {rest : List Char}
  {frames next : Frames}

theorem IsPart.run_tokens (h : IsPart source nodes) (frames : Frames) :
    frames.run (scan source).tokens = some (frames.add nodes) := by
  have hread := Frames.reads_ofTokens (scan source).tokens frames (h.noStrays.spares frames)
  rwa [Node.ofTokens_eq_ok_iff.2 (parse_eq_ok_iff.1 h.parse_eq).2] at hread

/-- Where a tag stands does not matter to the pass. -/
theorem Frames.step_token (frames : Frames) (slice : Slice) (start start' : Position) :
    frames.step (slice.token start) = frames.step (slice.token start') := by
  rcases slice with _ | ⟨_, _, _ | _ | _ | _ | _ | _ | _⟩
  case tag.opening block _ => cases block <;> rfl
  all_goals rfl

theorem Passes.tag {triple : Bool} {inside : List Char} {found : Tag}
    (h : (Slice.tag triple inside found).IsValid)
    (hstep : ∀ start, frames.step (.tag found start) = some next) (rest : List Char) :
    Passes (Slice.tag triple inside found).source rest frames next := by
  intro p
  obtain ⟨hinside, hfound⟩ := h
  have hscan := hinside.scanFrom p rest
  rw [hfound] at hscan
  refine ⟨[.tag found p], by simpa [Slice.source] using hscan, ?_⟩
  rw [Frames.run_cons, hstep]
  rfl

theorem passes_slices (hvalid : Slice.AllValid .complete slices)
    (hlast : ∀ content, slices.getLast? = some (.text content) → content.getLast? ≠ some '{')
    (hrest : EndsText rest) (before : List Char)
    (h : frames.run (Slice.tokensAfter before slices) = some next) :
    Passes (slices.flatMap Slice.source) rest frames next := by
  induction slices generalizing before frames with
  | nil =>
      cases h
      exact Passes.nil rest next
  | cons slice others ih =>
      obtain ⟨hslice, hfollow, hothers⟩ := hvalid
      obtain ⟨middle, hstep, hrun⟩ := Option.bind_eq_some_iff.1 h
      have hlater : Passes (others.flatMap Slice.source) rest middle next := by
        refine ih hothers (fun content hcontent => hlast content ?_) _ hrun
        rw [List.getLast?_cons, hcontent]
        rfl
      rw [List.flatMap_cons]
      refine Passes.append ?_ hlater
      cases slice with
      | tag triple inside found =>
          exact Passes.tag hslice (fun start => (frames.step_token _ start _).trans hstep) _
      | text content =>
          obtain ⟨hapart, hmore⟩ := hfollow
          cases hstep
          obtain ⟨rfl, -⟩ | ⟨tag, htag⟩ := Slice.complete_or_opens .complete hapart
          · exact Passes.literal ⟨hslice.1, hslice.2, hlast content rfl⟩ hrest frames
          · have hne : others ≠ [] := by
              rintro rfl
              cases htag
            refine Passes.literal ⟨hslice.1, hslice.2, hmore (.inl hne)⟩ (.inr ⟨tag ++ rest, ?_⟩)
              frames
            rw [Ending.source, List.append_nil] at htag
            rw [htag]
            rfl

/-- **A part leaves its nodes** in whatever block it stands. -/
theorem IsPart.passes (h : IsPart source nodes) (hrest : EndsText rest) (frames : Frames) :
    Passes source.toList rest frames (frames.add nodes) := by
  obtain ⟨slices, hvalid, hread, htokens⟩ := exists_slices (parse_eq_ok_iff.1 h.parse_eq).1
  rw [← hread]
  refine passes_slices hvalid (fun content hcontent => ?_) hrest [] (htokens ▸ h.run_tokens frames)
  rw [← getLast?_of_text hvalid hread hcontent]
  exact h.last

end Parts

/-- An inside between the tags of a block: one word opens the block and one closes it. -/
def blockText (opening closing : Block) (argument inside : String) : String :=
  String.ofList (braced ('#' :: (opening.keyword ++ ' ' :: argument.toList)) ++ inside.toList ++
    braced ('/' :: closing.keyword))

def eitherText (opening closing : Block) (argument first second : String) : String :=
  blockText opening closing argument
    (first ++ String.ofList (braced ['e', 'l', 's', 'e']) ++ second)

example : eitherText .when .unless "e" "a" "b" =
    "\x7b\x7b#if e\x7d\x7da\x7b\x7belse\x7d\x7db\x7b\x7b/unless\x7d\x7d" := by
  decide

section Blocks

variable {opening closing : Block} {e a b inside : String} {first second : List Node}
  {frame : Frame}

/-- The opening tag sets a frame up, the inside fills it, and the closing tag takes it off. -/
theorem parse_blockText (frame' : Frame) (he : IsName e.toList)
    (hopening : ∀ (frames : Frames) start,
      frames.step (.tag (.opening opening e) start) = some (frames.push frame))
    (hinside : ∀ rest, EndsText rest →
      Passes inside.toList rest (Frames.push {} frame) (Frames.push {} frame'))
    (hclosing : ∀ (frames : Frames) start,
      (frames.push frame').step (.tag (.closing (String.ofList closing.keyword)) start) =
        some (frames.add [frame'.node])) :
    parse (blockText opening closing e inside) = .ok [frame'.node] := by
  have hopen := Passes.opening opening he (hopening {})
  have hclose := Passes.closing closing (hclosing {}) []
  have hbetween := hinside (braced ('/' :: closing.keyword) ++ []) (Node.endsText_braced _ _)
  exact parse_eq_ok_iff.2 (scan_of_passes (((hopen _).append hbetween).append hclose))

theorem parse_conditionText (he : IsName e.toList) (ha : IsPart a first)
    (hopening : opening ≠ .each) (hclosing : closing ≠ .each) :
    parse (blockText opening closing e a) =
      .ok [.condition e (opening = .unless) first none] :=
  parse_blockText (.condition e (opening = .unless) first none) he
    (fun frames start => Frames.step_opening_condition hopening frames e start)
    (fun _ hrest => ha.passes hrest (Frames.push {} (.condition e (opening = .unless) [] none)))
    (Node.step_closing_condition hclosing rfl)

theorem passes_branches (ha : IsPart a first) (hb : IsPart b second) (negated : Bool)
    {rest : List Char} (hrest : EndsText rest) (frames : Frames) :
    Passes (a ++ String.ofList (braced ['e', 'l', 's', 'e']) ++ b).toList rest
      (frames.push (.condition e negated [] none))
      (frames.push (.condition e negated first (some second))) := by
  have hfirst := ha.passes (Node.endsText_braced ['e', 'l', 's', 'e'] (b.toList ++ rest))
    (frames.push (.condition e negated [] none))
  have helse := Node.passes_otherwise e negated first (b.toList ++ rest) frames
  have hsecond := hb.passes hrest (frames.push (.condition e negated first (some [])))
  rw [String.toList_append, String.toList_append, String.toList_ofList]
  exact (hfirst.append helse).append hsecond

theorem parse_eitherText (he : IsName e.toList) (ha : IsPart a first) (hb : IsPart b second)
    (hopening : opening ≠ .each) (hclosing : closing ≠ .each) :
    parse (eitherText opening closing e a b) =
      .ok [.condition e (opening = .unless) first (some second)] :=
  parse_blockText (.condition e (opening = .unless) first (some second)) he
    (fun frames start => Frames.step_opening_condition hopening frames e start)
    (fun _ hrest => passes_branches ha hb _ hrest {}) (Node.step_closing_condition hclosing rfl)

theorem parse_loopText (he : IsName e.toList) (ha : IsPart a first) :
    parse (blockText .each .each e a) = .ok [.loop e first] :=
  parse_blockText (.loop e first) he (fun _ _ => rfl)
    (fun _ hrest => ha.passes hrest (Frames.push {} (.loop e []))) fun _ _ => rfl

theorem renderItems_eq_foldr (body : Store → Rendering) (store : Store) (items : List Record)
    (i : Nat) :
    renderItems body store i items = (items.zipIdx i).foldr
      (fun item rest => body (store.child item.1 item.2) >> rest) Rendering.empty := by
  rw [Rendering.renderItems_eq_join, Rendering.join, List.foldr_map]

theorem Renderer.renderText_of_parse (renderer : Renderer) {source : String} {nodes : List Node}
    (h : parse source = .ok nodes) : renderer.renderText source = renderer.render nodes := by
  funext store
  rw [renderText, h]

variable (renderer : Renderer) (store : Store)

theorem renderText_conditionText (he : IsName e.toList) (ha : IsPart a first)
    (hopening : opening ≠ .each) (hclosing : closing ≠ .each) :
    renderer.renderText (blockText opening closing e a) store =
      if store.holds e != (opening = .unless) then renderer.renderText a store
      else Rendering.empty := by
  obtain ⟨incl, hincl⟩ := renderer.exists_include
  rw [renderer.renderText_of_parse (parse_conditionText he ha hopening hclosing),
    renderer.renderText_of_parse ha.parse_eq, hincl, hincl, Node.renderAll_singleton, Node.render]

theorem renderText_eitherText (he : IsName e.toList) (ha : IsPart a first) (hb : IsPart b second)
    (hopening : opening ≠ .each) (hclosing : closing ≠ .each) :
    renderer.renderText (eitherText opening closing e a b) store =
      if store.holds e != (opening = .unless) then renderer.renderText a store
      else renderer.renderText b store := by
  obtain ⟨incl, hincl⟩ := renderer.exists_include
  rw [renderer.renderText_of_parse (parse_eitherText he ha hb hopening hclosing),
    renderer.renderText_of_parse ha.parse_eq, renderer.renderText_of_parse hb.parse_eq, hincl, hincl,
    hincl, Node.renderAll_singleton, Node.render]

theorem renderText_loopText_of_list (he : IsName e.toList) (ha : IsPart a first)
    {items : List Record} (hitems : store.get? e = some (.list items)) :
    renderer.renderText (blockText .each .each e a) store = items.zipIdx.foldr
      (fun item rest => renderer.renderText a (store.child item.1 item.2) >> rest)
      Rendering.empty := by
  obtain ⟨incl, hincl⟩ := renderer.exists_include
  have hbody : renderer.renderText a = Node.renderAll incl first := by
    rw [renderer.renderText_of_parse ha.parse_eq]
    exact funext (hincl first)
  rw [renderer.renderText_of_parse (parse_loopText he ha), hincl, Node.renderAll_singleton,
    Node.render, Store.getList?_eq_some_iff.2 hitems, hbody]
  exact renderItems_eq_foldr (Node.renderAll incl first) store items 0

theorem renderText_loopText_of_forall_ne (he : IsName e.toList) (ha : IsPart a first)
    (hnone : ∀ items, store.get? e ≠ some (.list items)) :
    renderer.renderText (blockText .each .each e a) store = Rendering.empty := by
  obtain ⟨incl, hincl⟩ := renderer.exists_include
  have hlist : store.getList? e = none := Option.eq_none_iff_forall_ne_some.2 fun items hitems =>
    hnone items (Store.getList?_eq_some_iff.1 hitems)
  rw [renderer.renderText_of_parse (parse_loopText he ha), hincl, Node.renderAll_singleton,
    Node.render, hlist]

end Blocks

/-- **Written blocks mean what they say.** A condition reads as its two branches, shows the one that it
should, and does not mind which of the two words closes it; `unless` is `if` with the branches the other
way round. A loop shows its inside for each record in turn. -/
theorem renderText_blocks {e a b : String} {first second : List Node} (he : IsName e.toList)
    (ha : IsPart a first) (hb : IsPart b second) :
    (∀ opening closing, opening ≠ .each → closing ≠ .each →
      parse (eitherText opening closing e a b) =
        .ok [.condition e (opening = .unless) first (some second)]) ∧
    ∀ (renderer : Renderer) (store : Store),
      let shown := fun text => renderer.renderText text store
      (∀ closing closing', closing ≠ .each → closing' ≠ .each →
        shown (eitherText .when closing e a b) = (if store.holds e then shown a else shown b) ∧
        shown (eitherText .unless closing' e b a) = shown (eitherText .when closing e a b) ∧
        shown (blockText .when closing e a) =
          (if store.holds e then shown a else Rendering.empty) ∧
        shown (blockText .unless closing e a) =
          (if store.holds e then Rendering.empty else shown a)) ∧
      (∀ items, store.get? e = some (.list items) →
        shown (blockText .each .each e a) = items.zipIdx.foldr
          (fun item rest => renderer.renderText a (store.child item.1 item.2) >> rest)
          Rendering.empty) ∧
      ((∀ items, store.get? e ≠ some (.list items)) →
        shown (blockText .each .each e a) = Rendering.empty) := by
  refine ⟨fun opening closing => parse_eitherText he ha hb, ?_⟩
  intro renderer store shown
  refine ⟨?_, ?_, ?_⟩
  · intro closing closing' hclosing hclosing'
    have hwhen : Block.when ≠ .each := by decide
    have hunless : Block.unless ≠ .each := by decide
    have heither := renderText_eitherText renderer store he ha hb hwhen hclosing
    have hswapped := renderText_eitherText renderer store he hb ha hunless hclosing'
    have honly := renderText_conditionText renderer store he ha hwhen hclosing
    have hnever := renderText_conditionText renderer store he ha hunless hclosing
    simp only [shown, heither, hswapped, honly, hnever]
    cases store.holds e <;> exact ⟨rfl, rfl, rfl, rfl⟩
  · exact fun items => renderText_loopText_of_list renderer store he ha
  · exact renderText_loopText_of_forall_ne renderer store he ha

/-- Conditions in a loop, the branches of a condition apart by an `else` of their own. -/
def nestedPart : String :=
  blockText .each .each "x" (eitherText .when .unless "y" "p" "q")

/-- A closing tag that closes no kind of block. -/
def plainPart : String :=
  "r\x7b\x7b/foo\x7d\x7d"

theorem renderText_blocks_nested :
    let first := [Node.loop "x" [.condition "y" false [.text "p"] (some [.text "q"])]]
    let store := Store.ofList [("a b", .flag true),
      ("x", .list [.ofList [("y", .flag true)], .ofList [("y", .flag false)]])]
    IsName "a b".toList ∧ IsPart nestedPart first ∧ IsPart plainPart [.text "r"] ∧
      parse (eitherText .unless .when "a b" plainPart nestedPart) =
        .ok [.condition "a b" true [.text "r"] (some first)] ∧
      Renderer.renderText {} (eitherText .unless .when "a b" plainPart nestedPart) store =
        Rendering.ofText "pq" := by
  intro first store
  have hname : IsName "a b".toList := by decide
  have hfirst : IsPart nestedPart first :=
    ⟨parse_eq_ok_iff.2 ⟨by decide, by rfl⟩, by decide, by decide⟩
  have hplain : IsPart plainPart [.text "r"] :=
    ⟨parse_eq_ok_iff.2 ⟨by decide, by rfl⟩, by decide, by decide⟩
  refine ⟨hname, hfirst, hplain, ?_, ?_⟩
  · exact (renderText_blocks hname hplain hfirst).1 .unless .when (by decide) (by decide)
  · have hblocks := ((renderText_blocks hname hfirst hplain).2 {} store).1 .when .when
      (by decide) (by decide)
    have hwarnings : (Renderer.render {} first store).warnings = [] := by decide +kernel
    have hresult : (Renderer.render {} first store).result = .ok "pq" := by decide +kernel
    have hshown : Renderer.renderText {} nestedPart store = Rendering.ofText "pq" := by
      rw [Renderer.renderText_of_parse {} hfirst.parse_eq]
      exact Logged.ext hwarnings hresult
    exact hblocks.2.1.trans (hblocks.1.trans ((if_pos (by rfl)).trans hshown))

end PromptSheet.Template
