import PromptSheet.Proofs.Concatenation

/-!
# Comments leave no trace

A comment may stand wherever a tag may, also between the tags of an open block and in the middle of
a text. What is wrong with the template is then wrong with it as before, on the same line, and
otherwise it shows the same.

Both templates are compared with what is left of their tokens without comments, where texts that come
to stand side by side are one text and of a place only the line counts. The cuts at the end of a
block and at its `else` look at tags alone, so they cut these tokens as they cut all of them.
-/

namespace PromptSheet.Template

def Tag.isComment : Tag → Bool
  | .comment _ => true
  | _ => false

namespace Token

/-- Puts a text in front of tokens; two texts side by side are one. -/
def consText (content : String) : List Token → List Token
  | .text more :: rest => .text (content ++ more) :: rest
  | rest => .text content :: rest

/-- What counts of some tokens where comments do not. -/
def condensed : List Token → List Token
  | [] => []
  | .text content :: rest => consText content (condensed rest)
  | .tag found start :: rest =>
    if found.isComment then condensed rest
    else .tag found { line := start.line } :: condensed rest

section Condensed

variable {tokens other : List Token}

theorem consText_tag (content : String) (found : Tag) (start : Position) (rest : List Token) :
    consText content (.tag found start :: rest) = .text content :: .tag found start :: rest := rfl

theorem consText_consText (first second : String) (rest : List Token) :
    consText first (consText second rest) = consText (first ++ second) rest := by
  rcases rest with _ | ⟨_ | _, rest⟩ <;> simp [consText, String.append_assoc]

theorem condensed_append_congr (front : List Token) (h : condensed tokens = condensed other) :
    condensed (front ++ tokens) = condensed (front ++ other) := by
  induction front with
  | nil => exact h
  | cons token front ih =>
      cases token with
      | text content => rw [List.cons_append, List.cons_append, condensed, condensed, ih]
      | tag found start => rw [List.cons_append, List.cons_append, condensed, condensed, ih]

theorem condensed_comment (front back : List Token) (content : String) (start : Position) :
    condensed (front ++ .tag (.comment content) start :: back) = condensed (front ++ back) :=
  condensed_append_congr front rfl

theorem condensed_texts (front back : List Token) (first second : String) :
    condensed (front ++ .text first :: .text second :: back) =
      condensed (front ++ .text (first ++ second) :: back) := by
  apply condensed_append_congr
  rw [condensed, condensed, condensed, consText_consText]

theorem condensed_opening (block : Block) (argument : String) (start : Position)
    (rest : List Token) : condensed (.tag (.opening block argument) start :: rest) =
      .tag (.opening block argument) { line := start.line } :: condensed rest := by
  rw [condensed, if_neg (by simp [Tag.isComment])]

/-- How many bytes there are before a token does not count. -/
theorem condensed_shift (bytes bytes' lines : Nat) (tokens : List Token) :
    condensed (tokens.map (shift bytes lines)) = condensed (tokens.map (shift bytes' lines)) := by
  induction tokens with
  | nil => rfl
  | cons token tokens ih =>
      rw [List.map_cons, List.map_cons]
      cases token with
      | text content => rw [shift, shift, condensed, condensed, ih]
      | tag found start =>
          rw [shift, shift, condensed, condensed, ih]
          rfl

end Condensed

/-! ### Cuts of condensed tokens

Texts do not count for the ends of blocks, so a cut leaves the same tags on either side whether two
texts in a row are one token or two.
-/

section Cuts

variable (state : Waiting × Nat) (depth : Nat) (content : String) (rest tokens : List Token)

theorem cutAtEnd_text : cutAtEnd state (.text content :: rest) =
    (cutAtEnd state rest).map fun cut => (.text content :: cut.1, cut.2) :=
  cutAtEnd_of_step rest (Waiting.step_text state.1 state.2 content)

theorem cutAtOtherwise_text : cutAtOtherwise depth (.text content :: rest) =
    (.text content :: (cutAtOtherwise depth rest).1, (cutAtOtherwise depth rest).2) := by
  simp [cutAtOtherwise, isOtherwise, isTag]

theorem cutAtEnd_consText : cutAtEnd state (consText content rest) =
    (cutAtEnd state rest).map fun cut => (consText content cut.1, cut.2) := by
  rcases rest with _ | ⟨more | ⟨found, start⟩, rest⟩
  · rfl
  · rw [consText, cutAtEnd_text, cutAtEnd_text, Option.map_map]
    rfl
  · rw [consText_tag, cutAtEnd_text]
    cases hstep : Waiting.step state (.tag found start) with
    | none =>
        rw [cutAtEnd_of_step_eq_none rest hstep]
        rfl
    | some next =>
        rw [cutAtEnd_of_step rest hstep, Option.map_map, Option.map_map]
        rfl

theorem cutAtOtherwise_consText : cutAtOtherwise depth (consText content rest) =
    (consText content (cutAtOtherwise depth rest).1, (cutAtOtherwise depth rest).2) := by
  rcases rest with _ | ⟨more | ⟨found, start⟩, rest⟩
  · simp [consText, cutAtOtherwise_text, cutAtOtherwise]
  · rw [consText, cutAtOtherwise_text, cutAtOtherwise_text]
    rfl
  · rw [consText_tag, cutAtOtherwise_text, cutAtOtherwise]
    split <;> rfl

theorem step_comment {found : Tag} (h : found.isComment = true) (start : Position) :
    Waiting.step state (.tag found start) = some state := by
  cases found with
  | comment content => exact Waiting.step_of_ofLeaf? state.1 state.2 start rfl
  | _ => cases h

/-- Where a tag stands does not matter to the count. -/
theorem step_line (found : Tag) (start : Position) :
    Waiting.step state (.tag found { line := start.line }) =
      Waiting.step state (.tag found start) := by
  cases found <;> rfl

theorem cutAtEnd_condensed : cutAtEnd state (condensed tokens) =
    (cutAtEnd state tokens).map fun cut => (condensed cut.1, condensed cut.2) := by
  induction tokens generalizing state with
  | nil => rfl
  | cons token rest ih =>
      cases token with
      | text content =>
          rw [condensed, cutAtEnd_consText, ih, cutAtEnd_text, Option.map_map, Option.map_map]
          rfl
      | tag found start =>
          by_cases hcomment : found.isComment = true
          · rw [condensed, if_pos hcomment, ih,
              cutAtEnd_of_step rest (step_comment state hcomment start), Option.map_map]
            simp [Function.comp_def, condensed, hcomment]
          · rw [condensed, if_neg hcomment]
            cases hstep : Waiting.step state (.tag found start) with
            | none =>
                rw [cutAtEnd_of_step_eq_none rest hstep,
                  cutAtEnd_of_step_eq_none _ ((step_line state found start).trans hstep)]
                rfl
            | some next =>
                rw [cutAtEnd_of_step rest hstep,
                  cutAtEnd_of_step _ ((step_line state found start).trans hstep), ih,
                  Option.map_map, Option.map_map]
                simp [Function.comp_def, condensed, hcomment]

theorem cutAtOtherwise_condensed : cutAtOtherwise depth (condensed tokens) =
    (condensed (cutAtOtherwise depth tokens).1,
      (cutAtOtherwise depth tokens).2.map condensed) := by
  induction tokens generalizing depth with
  | nil => rfl
  | cons token rest ih =>
      cases token with
      | text content => rw [condensed, cutAtOtherwise_consText, ih, cutAtOtherwise_text, condensed]
      | tag found start =>
          by_cases hcomment : found.isComment = true
          · obtain ⟨content, rfl⟩ : ∃ content, found = .comment content := by
              cases found <;> simp_all [Tag.isComment]
            rw [condensed, if_pos hcomment, ih]
            simp [cutAtOtherwise, isOtherwise, isTag, Tag.opensCondition, Tag.closesCondition,
              condensed, hcomment]
          · rw [condensed, if_neg hcomment]
            have hother : isOtherwise (.tag found { line := start.line }) =
                isOtherwise (.tag found start) := by
              cases found <;> rfl
            simp only [cutAtOtherwise, hother, isTag, ih]
            split
            · rfl
            · rw [condensed, if_neg hcomment]
              rfl

end Cuts

end Token

namespace Node

def ShowAlike (nodes nodes' : List Node) : Prop :=
  ∀ incl store, renderAll incl nodes store = renderAll incl nodes' store

end Node

/-- The same is wrong with both, or both are trees that show the same. -/
inductive ReadAlike : Except ParseError (List Node) → Except ParseError (List Node) → Prop where
  | error (e : ParseError) : ReadAlike (.error e) (.error e)
  | ok {nodes nodes' : List Node} (h : Node.ShowAlike nodes nodes') :
    ReadAlike (.ok nodes) (.ok nodes')

namespace ReadAlike

variable {result result' other : Except ParseError (List Node)} {nodes nodes' : List Node}

theorem symm (h : ReadAlike result result') : ReadAlike result' result := by
  cases h with
  | error e => exact .error e
  | ok h => exact .ok fun incl store => (h incl store).symm

theorem trans (h : ReadAlike result result') (h' : ReadAlike result' other) :
    ReadAlike result other := by
  cases h with
  | error e => exact h'
  | ok h =>
      cases h' with
      | ok h' => exact .ok fun incl store => (h incl store).trans (h' incl store)

theorem bind {next next' : List Node → Except ParseError (List Node)}
    (h : ReadAlike result result')
    (hnext : ∀ nodes nodes', Node.ShowAlike nodes nodes' → ReadAlike (next nodes) (next' nodes')) :
    ReadAlike (result.bind next) (result'.bind next') := by
  cases h with
  | error e => exact .error e
  | ok h => exact hnext _ _ h

/-- More nodes in front. -/
theorem prepend (h : ReadAlike result result') (hfront : Node.ShowAlike nodes nodes') :
    ReadAlike (result.map (nodes ++ ·)) (result'.map (nodes' ++ ·)) := by
  cases h with
  | error e => exact .error e
  | ok h =>
      refine .ok fun incl store => ?_
      rw [Node.renderAll_append, Node.renderAll_append, hfront, h]

end ReadAlike

namespace Node

variable {nodes nodes' : List Node}

theorem ShowAlike.refl (nodes : List Node) : ShowAlike nodes nodes :=
  fun _ _ => rfl

theorem ShowAlike.loop (h : ShowAlike nodes nodes') (collection : String) :
    ShowAlike [.loop collection nodes] [.loop collection nodes'] := by
  intro incl store
  have hbody : renderAll incl nodes = renderAll incl nodes' := funext (h incl)
  rw [renderAll_singleton, renderAll_singleton, render, render, hbody]

theorem ShowAlike.condition (h : ShowAlike nodes nodes') (expression : String) (negated : Bool) :
    ShowAlike [.condition expression negated nodes none]
      [.condition expression negated nodes' none] := by
  intro incl store
  rw [renderAll_singleton, renderAll_singleton, render, render, h]

theorem ShowAlike.either {others others' : List Node} (h : ShowAlike nodes nodes')
    (hothers : ShowAlike others others') (expression : String) (negated : Bool) :
    ShowAlike [.condition expression negated nodes (some others)]
      [.condition expression negated nodes' (some others')] := by
  intro incl store
  rw [renderAll_singleton, renderAll_singleton, render, render, h, hothers]

theorem showAlike_comment {tag : Tag} (h : tag.isComment = true) :
    ShowAlike [] (ofLeaf? tag).toList := by
  intro incl store
  cases tag with
  | comment content =>
      rw [show ofLeaf? (.comment content) = some (.comment content) from rfl, Option.toList_some,
        renderAll_singleton, render, renderAll_nil]
  | _ => cases h

end Node

/-- A text in front of condensed tokens shows what it shows as a token of its own. -/
theorem readAlike_consText (content : String) (rest : List Token) :
    ReadAlike (Node.ofTokens (Token.consText content rest))
      ((Node.ofTokens rest).map ([.text content] ++ ·)) := by
  rcases rest with _ | ⟨more | ⟨found, start⟩, rest⟩
  · rw [show Token.consText content [] = [.text content] from rfl, Node.ofTokens_text]
    cases Node.ofTokens [] with
    | error e => exact .error e
    | ok nodes => exact .ok (Node.ShowAlike.refl _)
  · rw [Token.consText, Node.ofTokens_text, Node.ofTokens_text, Node.map_append_map]
    cases Node.ofTokens rest with
    | error e => exact .error e
    | ok nodes =>
        refine .ok fun incl store => ?_
        simp [Node.render, Rendering.ofText_append, Rendering.andThen_assoc]
  · rw [Token.consText_tag, Node.ofTokens_text]
    cases Node.ofTokens (.tag found start :: rest) with
    | error e => exact .error e
    | ok nodes => exact .ok (Node.ShowAlike.refl _)

/-- **Condensed tokens read as all of them.** The induction follows the reader, whose cuts are those
of the condensed tokens. -/
theorem readAlike_condensed (tokens : List Token) :
    ReadAlike (Node.ofTokens (Token.condensed tokens)) (Node.ofTokens tokens) := by
  induction tokens using Node.ofTokens.induct with
  | case1 =>
      rw [Token.condensed, Node.ofTokens]
      exact .ok (Node.ShowAlike.refl _)
  | case2 content rest ih =>
      rw [Token.condensed, Node.ofTokens_text]
      exact (readAlike_consText content _).trans (ih.prepend (Node.ShowAlike.refl _))
  | case3 collection start rest hcut =>
      have hcondensed := Token.cutAtEnd_condensed (.loop, 0) rest
      rw [show Token.cutAtEnd (.loop, 0) rest = none from hcut] at hcondensed
      rw [Token.condensed_opening, Node.ofTokens_unclosed_loop hcut,
        Node.ofTokens_unclosed_loop hcondensed]
      exact .error _
  | case4 collection start rest inside after hcut ihInside ihAfter =>
      have hcondensed := Token.cutAtEnd_condensed (.loop, 0) rest
      rw [show Token.cutAtEnd (.loop, 0) rest = some (inside, after) from hcut] at hcondensed
      rw [Token.condensed_opening, Node.ofTokens_loop hcut, Node.ofTokens_loop hcondensed]
      exact ihInside.bind fun body body' hbody => ihAfter.prepend (hbody.loop collection)
  | case5 block expression start rest hblock hcut =>
      have hcondensed := Token.cutAtEnd_condensed (.condition, 0) rest
      rw [show Token.cutAtEnd (.condition, 0) rest = none from hcut] at hcondensed
      rw [Token.condensed_opening, Node.ofTokens_unclosed_condition hblock hcut,
        Node.ofTokens_unclosed_condition hblock hcondensed]
      exact .error _
  | case6 block expression start rest hblock inside after hcut ihFirst ihAfter ihOther =>
      have hcondensed := Token.cutAtEnd_condensed (.condition, 0) rest
      rw [show Token.cutAtEnd (.condition, 0) rest = some (inside, after) from hcut] at hcondensed
      have hsplit := Token.cutAtOtherwise_condensed 0 inside
      obtain ⟨close, last, _, hrun, _⟩ := Token.cutAtEnd_eq_some (.condition, 0) hcut
      rw [Token.condensed_opening]
      rcases Token.cutAtOtherwise_of_run hrun with ⟨hnone, _⟩ | ⟨first, _, other, hsome, _⟩
      · rw [hnone] at ihFirst hsplit
        rw [Node.ofTokens_condition hblock hcut hnone,
          Node.ofTokens_condition hblock hcondensed hsplit]
        exact ihFirst.bind fun body body' hbody => ihAfter.prepend (hbody.condition expression _)
      · rw [hsome] at ihFirst ihOther hsplit
        rw [Node.ofTokens_either hblock hcut hsome, Node.ofTokens_either hblock hcondensed hsplit]
        exact ihFirst.bind fun body body' hbody => (ihOther other rfl).bind
          fun others others' hothers => ihAfter.prepend (hbody.either hothers expression _)
  | case7 tag start rest hloop hopening ih =>
      rw [Token.condensed, Node.ofTokens_tag hopening]
      by_cases hcomment : tag.isComment = true
      · have hshow : Node.ShowAlike [] (Node.ofLeaf? tag).toList := Node.showAlike_comment hcomment
        have hread := ih.prepend hshow
        rw [if_pos hcomment]
        cases hrest : Node.ofTokens (Token.condensed rest) with
        | error e => rwa [hrest] at hread
        | ok nodes => rwa [hrest] at hread
      · rw [if_neg hcomment, Node.ofTokens_tag hopening]
        exact ih.prepend (Node.ShowAlike.refl _)

def commentText (content : String) : String :=
  String.ofList (braced ('!' :: content.toList))

/-- The first closing braces after such a content end the comment, which is all on one line. -/
structure IsCommentContent (content : String) : Prop where
  noCloser : ¬['}', '}'] <:+: content.toList
  last : content.toList.getLast? ≠ some '}'
  oneLine : '\n' ∉ content.toList

theorem Tag.exists_ofContent_mark (s : List Char) :
    ∃ text, ∀ line, Tag.ofContent line ('!' :: s) = .ok (.comment text) := by
  have hmark : Text.isBlank '!' = false := by decide
  have hne : Text.trim ('!' :: s) ≠ [] := by
    intro hnil
    have hblank := Text.trim_eq_nil_iff.1 hnil '!' (List.mem_cons_self ..)
    rw [hmark] at hblank
    cases hblank
  obtain ⟨c, rest, hcons⟩ := List.exists_cons_of_ne_nil hne
  have hstart : Text.trimStart ('!' :: s) = '!' :: s :=
    Text.dropWhile_isBlank_of_head (by simpa using hmark)
  obtain ⟨blanks, hblanks⟩ := Text.exists_trimEnd_append (Text.trimStart ('!' :: s))
  rw [show Text.trimEnd (Text.trimStart ('!' :: s)) = c :: rest from hcons, hstart] at hblanks
  obtain ⟨rfl, _⟩ := List.cons.inj hblanks
  exact ⟨_, fun line => by rw [Tag.ofContent, hcons, Tag.ofTrimmed]⟩

section Inserted

variable {a b content : String}

namespace IsCommentContent

theorem isInside (h : IsCommentContent content) : IsInside false ('!' :: content.toList) := by
  refine ⟨?_, fun _ hhead => absurd hhead (by simp)⟩
  have hmarked : ¬['}', '}'] <:+: ['!'] ++ content.toList :=
    not_doubled_append (by decide) h.noCloser (by simp)
  refine not_doubled_append hmarked (by decide) fun hbraces => h.last ?_
  have hlast : ('!' :: content.toList).getLast? = some '}' := hbraces.1
  rw [List.getLast?_cons] at hlast
  cases hcontent : content.toList.getLast? with
  | none => simp [hcontent] at hlast
  | some c => simpa [hcontent] using hlast

theorem countNewlines_append (h : IsCommentContent content) (a : String) :
    Text.countNewlines (a ++ commentText content).toList = Text.countNewlines a.toList := by
  have hnone : content.toList.count '\n' = 0 := List.count_eq_zero.2 h.oneLine
  simp [commentText, braced, Text.countNewlines, hnone]

theorem exists_scan (h : IsCommentContent content) :
    ∃ text, scan (commentText content) = ⟨[.tag (.comment text) {}], none⟩ := by
  obtain ⟨text, htext⟩ := Tag.exists_ofContent_mark content.toList
  have hvalid : Slice.AllValid .complete [.tag false ('!' :: content.toList) (.comment text)] :=
    ⟨⟨h.isInside, htext⟩, trivial, trivial⟩
  refine ⟨text, Segmentation.scan_eq (show Segmentation.IsValid ⟨_, .complete⟩ from hvalid) ?_⟩
  simp [Segmentation.source, Segmentation.read, Slice.source, Ending.source, commentText, braced,
    opener, closer]

theorem exists_scan_append (h : IsCommentContent content) (ha : (scan a).failure = none)
    (hend : a.toList.getLast? ≠ some '{') : ∃ text start, scan (a ++ commentText content) =
      ⟨(scan a).tokens ++ [.tag (.comment text) start], none⟩ := by
  obtain ⟨text, hscan⟩ := h.exists_scan
  refine ⟨text, Position.shift (a.toList.map Char.utf8Size).sum
    (Text.countNewlines a.toList) {}, ?_⟩
  rw [scan_append_of_apart ha (fun hseam => hend hseam.1), hscan]
  · rfl
  · rintro ⟨s, t, _, hhead⟩
    rw [hscan] at hhead
    cases hhead

end IsCommentContent

/-- What is left of the tokens of two sources without comments, texts that meet or not. -/
theorem condensed_scan_append (ha : (scan a).failure = none) (hseam : SeamClosed a b) :
    (scan (a ++ b)).failure =
        (scan b).failure.map (ParseError.shift (Text.countNewlines a.toList)) ∧
      Token.condensed (scan (a ++ b)).tokens =
        Token.condensed ((scan a).tokens ++ (scan b).tokens.map (shiftAfter a)) := by
  by_cases hmeet : ∃ s t, TextsMeet a b s t
  · obtain ⟨s, t, hmeet⟩ := hmeet
    obtain ⟨before, after, hfirst, hsecond, hscan⟩ := scan_append_of_meet ha hseam hmeet
    rw [hscan, hfirst, hsecond]
    refine ⟨rfl, ?_⟩
    rw [List.map_cons, List.append_assoc, List.singleton_append, shiftAfter, Token.shift,
      Token.condensed_texts]
  · rw [scan_append_of_apart ha hseam hmeet]
    exact ⟨rfl, rfl⟩

theorem condensed_scan_comment (h : IsCommentContent content) (ha : (scan a).failure = none)
    (hend : a.toList.getLast? ≠ some '{') :
    (scan (a ++ commentText content ++ b)).failure = (scan (a ++ b)).failure ∧
      Token.condensed (scan (a ++ commentText content ++ b)).tokens =
        Token.condensed (scan (a ++ b)).tokens := by
  obtain ⟨text, start, hscan⟩ := h.exists_scan_append ha hend
  have hclosed : (scan (a ++ commentText content)).failure = none := by rw [hscan]
  have hseam : SeamClosed (a ++ commentText content) b := by
    rintro ⟨hlast, _⟩
    simp [commentText, braced, List.getLast?_cons] at hlast
  obtain ⟨hfailure, htokens⟩ := condensed_scan_append hclosed hseam
  obtain ⟨hfailure', htokens'⟩ := condensed_scan_append (b := b) ha fun hseam => hend hseam.1
  rw [hfailure, hfailure', htokens, htokens', h.countNewlines_append]
  refine ⟨rfl, ?_⟩
  rw [hscan, List.append_assoc, List.singleton_append, Token.condensed_comment]
  apply Token.condensed_append_congr
  rw [shiftAfter, shiftAfter, h.countNewlines_append]
  exact Token.condensed_shift ..

theorem readAlike_parse (hfailure : (scan a).failure = (scan b).failure)
    (htokens : Token.condensed (scan a).tokens = Token.condensed (scan b).tokens) :
    ReadAlike (parse a) (parse b) := by
  rw [parse, parse, hfailure]
  cases (scan b).failure with
  | some e => exact .error e
  | none =>
      have hread := readAlike_condensed (scan b).tokens
      rw [← htokens] at hread
      exact (readAlike_condensed _).symm.trans hread

end Inserted

/-- **A comment changes nothing**: what is wrong with the template is wrong with it as before, on
the same line, and otherwise every renderer shows the same for every store. -/
theorem parse_comment (a b content : String) (ha : (scan a).failure = none)
    (hend : a.toList.getLast? ≠ some '{') (hcontent : IsCommentContent content) :
    (∀ e, parse (a ++ commentText content ++ b) = .error e ↔ parse (a ++ b) = .error e) ∧
      ∀ (renderer : Renderer) (store : Store),
        renderer.renderText (a ++ commentText content ++ b) store =
          renderer.renderText (a ++ b) store := by
  obtain ⟨hfailure, htokens⟩ := condensed_scan_comment (b := b) hcontent ha hend
  have halike := readAlike_parse hfailure htokens
  generalize hwith : parse (a ++ commentText content ++ b) = result at halike
  generalize hwithout : parse (a ++ b) = result' at halike
  cases halike with
  | error e =>
      refine ⟨fun e => Iff.rfl, fun renderer store => ?_⟩
      rw [Renderer.renderText, Renderer.renderText, hwith, hwithout]
  | ok h =>
      refine ⟨fun e => by simp, fun renderer store => ?_⟩
      obtain ⟨incl, hincl⟩ := renderer.exists_include
      rw [Renderer.renderText, Renderer.renderText, hwith, hwithout]
      simp only [hincl]
      exact h incl store

/-- A comment between a condition and its end, with a text on either side. -/
theorem parse_comment_inside :
    (scan "\x7b\x7b#if a\x7d\x7dx").failure = none ∧
      "\x7b\x7b#if a\x7d\x7dx".toList.getLast? ≠ some '{' ∧ IsCommentContent " no \x7d end " ∧
      ∀ (renderer : Renderer) (store : Store),
        renderer.renderText ("\x7b\x7b#if a\x7d\x7dx" ++ commentText " no \x7d end " ++
          "y\x7b\x7b/if\x7d\x7d") store =
          renderer.renderText ("\x7b\x7b#if a\x7d\x7dx" ++ "y\x7b\x7b/if\x7d\x7d") store := by
  have ha : (scan "\x7b\x7b#if a\x7d\x7dx").failure = none := by decide
  have hend : "\x7b\x7b#if a\x7d\x7dx".toList.getLast? ≠ some '{' := by decide
  have hcontent : IsCommentContent " no \x7d end " := ⟨by decide, by decide, by decide⟩
  exact ⟨ha, hend, hcontent, (parse_comment _ _ _ ha hend hcontent).2⟩

end PromptSheet.Template
