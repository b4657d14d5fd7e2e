import PromptSheet.Proofs.OnePass
import PromptSheet.Proofs.RenderingLaws
import PromptSheet.Proofs.Segments

/-!
# One template after another

A source that reads as a template is whole: its last tag is closed, and so are its blocks. Whatever
follows is read as it would be on its own, only further on, so that a tag stands at a later place and
an error on a later line. The two sources have to be kept from making a tag of their own, though, from
a brace at the end of one and a brace at the start of the other; and where a text goes on from one
into the other, it is one text.

The tokens are those of a segmentation, which is known by the slices that it consists of, so the
segmentation of both sources together is written down and need not be scanned for.
-/

namespace PromptSheet.Template

def Position.shift (bytes lines : Nat) (p : Position) : Position :=
  { offset := bytes + p.offset, line := p.line + lines }

def Token.shift (bytes lines : Nat) : Token → Token
  | .text content => .text content
  | .tag found start => .tag found (start.shift bytes lines)

namespace Token

variable {bytes lines : Nat}

@[simp]
theorem isTag_shift (p : Tag → Bool) (token : Token) :
    (token.shift bytes lines).isTag p = token.isTag p := by
  cases token <;> rfl

@[simp]
theorem isOtherwise_shift (token : Token) :
    (token.shift bytes lines).isOtherwise = token.isOtherwise := by
  rcases token with _ | ⟨_ | _ | _ | _ | _ | _ | _, _⟩ <;> rfl

theorem cutAtEnd_shift (bytes lines : Nat) (state : Waiting × Nat) (tokens : List Token) :
    cutAtEnd state (tokens.map (shift bytes lines)) =
      (cutAtEnd state tokens).map fun cut =>
        (cut.1.map (shift bytes lines), cut.2.map (shift bytes lines)) := by
  obtain ⟨waiting, depth⟩ := state
  simp only [cutAtEnd]
  induction tokens generalizing depth with
  | nil => rfl
  | cons token rest ih =>
      simp only [List.map_cons, cutAtClose, isTag_shift]
      split
      · rw [ih]
        simp [Option.map_map, Function.comp_def]
      · split
        · cases depth with
          | zero => rfl
          | succ depth =>
              simp only [ih, Option.map_map]
              rfl
        · rw [ih]
          simp [Option.map_map, Function.comp_def]

theorem cutAtOtherwise_shift (bytes lines depth : Nat) (tokens : List Token) :
    cutAtOtherwise depth (tokens.map (shift bytes lines)) =
      ((cutAtOtherwise depth tokens).1.map (shift bytes lines),
        (cutAtOtherwise depth tokens).2.map (List.map (shift bytes lines))) := by
  induction tokens generalizing depth with
  | nil => rfl
  | cons token rest ih =>
      simp only [List.map_cons, cutAtOtherwise, isTag_shift, isOtherwise_shift, ih]
      split <;> rfl

theorem cutAtEnd_append (state : Waiting × Nat) {tokens inside after : List Token}
    (h : cutAtEnd state tokens = some (inside, after)) (second : List Token) :
    cutAtEnd state (tokens ++ second) = some (inside, after ++ second) := by
  induction tokens generalizing state inside with
  | nil => simp [cutAtEnd, cutAtClose] at h
  | cons token rest ih =>
      rw [List.cons_append]
      cases hstep : Waiting.step state token with
      | none =>
          rw [cutAtEnd_of_step_eq_none _ hstep] at h ⊢
          cases h
          rfl
      | some next =>
          rw [cutAtEnd_of_step _ hstep] at h ⊢
          obtain ⟨⟨inner, later⟩, hcut, heq⟩ := Option.map_eq_some_iff.1 h
          cases heq
          rw [ih next hcut]
          rfl

end Token

namespace Node

variable {first second : List Token} {bytes lines : Nat}

/-- **A template further on reads alike**, but for the lines in what is wrong with it. -/
theorem ofTokens_shift (tokens : List Token) :
    ofTokens (tokens.map (Token.shift bytes lines)) =
      (ofTokens tokens).mapError (ParseError.shift lines) := by
  induction tokens using ofTokens.induct with
  | case1 =>
      rw [List.map_nil, ofTokens]
      rfl
  | case2 content rest ih =>
      rw [List.map_cons, Token.shift, ofTokens_text, ofTokens_text, ih, mapError_map]
  | case3 collection start rest hcut =>
      have hshift := Token.cutAtEnd_shift bytes lines (.loop, 0) rest
      rw [show Token.cutAtEnd (.loop, 0) rest = none from hcut] at hshift
      rw [List.map_cons, Token.shift, ofTokens_unclosed_loop hcut, ofTokens_unclosed_loop hshift]
      rfl
  | case4 collection start rest inside after hcut ihInside ihAfter =>
      have hshift := Token.cutAtEnd_shift bytes lines (.loop, 0) rest
      rw [show Token.cutAtEnd (.loop, 0) rest = some (inside, after) from hcut] at hshift
      rw [List.map_cons, Token.shift, ofTokens_loop hcut, ofTokens_loop hshift, ihInside, ihAfter,
        ← mapError_bind]
      simp only [mapError_map]
  | case5 block expression start rest hblock hcut =>
      have hshift := Token.cutAtEnd_shift bytes lines (.condition, 0) rest
      rw [show Token.cutAtEnd (.condition, 0) rest = none from hcut] at hshift
      rw [List.map_cons, Token.shift, ofTokens_unclosed_condition hblock hcut,
        ofTokens_unclosed_condition hblock hshift]
      rfl
  | case6 block expression start rest hblock inside after hcut ihFirst ihAfter ihOther =>
      have hshift := Token.cutAtEnd_shift bytes lines (.condition, 0) rest
      rw [show Token.cutAtEnd (.condition, 0) rest = some (inside, after) from hcut] at hshift
      have hsplit := Token.cutAtOtherwise_shift bytes lines 0 inside
      obtain ⟨close, last, _, hrun, _⟩ := Token.cutAtEnd_eq_some (.condition, 0) hcut
      rcases Token.cutAtOtherwise_of_run hrun with
        ⟨hnone, _⟩ | ⟨body, _, other, hsome, _⟩
      · rw [hnone] at ihFirst hsplit
        rw [List.map_cons, Token.shift, ofTokens_condition hblock hcut hnone,
          ofTokens_condition hblock hshift hsplit, ihFirst, ihAfter, ← mapError_bind]
        simp only [mapError_map]
      · rw [hsome] at ihFirst ihOther hsplit
        rw [List.map_cons, Token.shift, ofTokens_either hblock hcut hsome,
          ofTokens_either hblock hshift hsplit, ihFirst, ihOther other rfl, ihAfter, ← mapError_bind]
        simp only [mapError_map, mapError_bind]
  | case7 tag start rest hloop hopening ih =>
      rw [List.map_cons, Token.shift, ofTokens_tag hopening, ofTokens_tag hopening, ih, mapError_map]

theorem map_append_map (result : Except ParseError (List Node)) (front back : List Node) :
    (result.map (back ++ ·)).map (front ++ ·) = result.map ((front ++ back) ++ ·) := by
  cases result with
  | error e => rfl
  | ok nodes => simp [Except.map]

/-- **What is whole on its own stays as it is**, whatever comes after it. -/
theorem ofTokens_append {nodes : List Node} (h : ofTokens first = .ok nodes)
    (second : List Token) :
    ofTokens (first ++ second) = (ofTokens second).map (nodes ++ ·) := by
  induction first using ofTokens.induct generalizing nodes with
  | case1 =>
      rw [ofTokens] at h
      cases h
      rw [List.nil_append]
      cases ofTokens second <;> rfl
  | case2 content rest ih =>
      rw [ofTokens_text] at h
      obtain ⟨later, hlater, rfl⟩ := eq_ok_of_map h
      rw [List.cons_append, ofTokens_text, ih hlater, map_append_map]
  | case3 collection start rest hcut =>
      rw [ofTokens_unclosed_loop hcut] at h
      cases h
  | case4 collection start rest inside after hcut ihInside ihAfter =>
      rw [ofTokens_loop hcut] at h
      obtain ⟨body, hbody, h⟩ := eq_ok_of_bind h
      obtain ⟨later, hlater, rfl⟩ := eq_ok_of_map h
      rw [List.cons_append, ofTokens_loop (Token.cutAtEnd_append (.loop, 0) hcut second), hbody,
        ihAfter hlater, ← map_append_map]
      rfl
  | case5 block expression start rest hblock hcut =>
      rw [ofTokens_unclosed_condition hblock hcut] at h
      cases h
  | case6 block expression start rest hblock inside after hcut ihFirst ihAfter ihOther =>
      obtain ⟨close, last, _, hrun, _⟩ := Token.cutAtEnd_eq_some (.condition, 0) hcut
      have hmore := Token.cutAtEnd_append (.condition, 0) hcut second
      rcases Token.cutAtOtherwise_of_run hrun with ⟨hnone, _⟩ | ⟨front, _, other, hsome, _⟩
      · rw [ofTokens_condition hblock hcut hnone] at h
        obtain ⟨body, hbody, h⟩ := eq_ok_of_bind h
        obtain ⟨later, hlater, rfl⟩ := eq_ok_of_map h
        rw [List.cons_append, ofTokens_condition hblock hmore hnone, hbody, ihAfter hlater,
          ← map_append_map]
        rfl
      · rw [ofTokens_either hblock hcut hsome] at h
        obtain ⟨body, hbody, h⟩ := eq_ok_of_bind h
        obtain ⟨otherwise, hotherwise, h⟩ := eq_ok_of_bind h
        obtain ⟨later, hlater, rfl⟩ := eq_ok_of_map h
        rw [List.cons_append, ofTokens_either hblock hmore hsome, hbody, hotherwise,
          ihAfter hlater, ← map_append_map]
        rfl
  | case7 tag start rest hloop hopening ih =>
      rw [ofTokens_tag hopening] at h
      obtain ⟨later, hlater, rfl⟩ := eq_ok_of_map h
      rw [List.cons_append, ofTokens_tag hopening, ih hlater, map_append_map]

/-- A text at the end of a template stands outside of all its blocks. -/
theorem ofTokens_concat_text {content : String} {nodes : List Node}
    (h : ofTokens (first ++ [.text content]) = .ok nodes) :
    ∃ before, ofTokens first = .ok before ∧ nodes = before ++ [.text content] := by
  rw [ofTokens_eq_ok_iff, Frames.tree?, Frames.run_append] at h
  obtain ⟨last, hlast, hfinish⟩ := Option.bind_eq_some_iff.1 h
  obtain ⟨frames, hfirst, htext⟩ := Option.bind_eq_some_iff.1 hlast
  cases htext
  obtain ⟨outer, _ | ⟨innermost, others⟩⟩ := frames
  · cases hfinish
    refine ⟨outer, ofTokens_eq_ok_iff.2 ?_, rfl⟩
    rw [Frames.tree?, hfirst]
    rfl
  · cases hfinish

end Node

/-! ### Segments of two sources

The segments of the second source follow those of the first, further on by its bytes and newlines.
Where a text ends the one and begins the other, the two are one segment.
-/

namespace Position

theorem after_append (first before : List Char) :
    after (first ++ before) =
      (after before).shift (first.map Char.utf8Size).sum (Text.countNewlines first) := by
  simp only [after, shift, Text.countNewlines, List.map_append, List.sum_append, List.count_append]
  congr 1
  omega

end Position

namespace Slice

variable {ending : Ending} {first second : List Slice}

theorem token_after_append (first before : List Char) (slice : Slice) :
    slice.token (.after (first ++ before)) = (slice.token (.after before)).shift
      (first.map Char.utf8Size).sum (Text.countNewlines first) := by
  cases slice with
  | text content => rfl
  | tag triple inside found => rw [token, token, Position.after_append, Token.shift]

theorem tokensAfter_shift (first before : List Char) (slices : List Slice) :
    tokensAfter (first ++ before) slices = (tokensAfter before slices).map
      (Token.shift (first.map Char.utf8Size).sum (Text.countNewlines first)) := by
  induction slices generalizing before with
  | nil => rfl
  | cons slice rest ih =>
      rw [tokensAfter, tokensAfter, List.append_assoc, ih, token_after_append, List.map_cons]

theorem allValid_append (hfirst : AllValid .complete first) (hsecond : AllValid ending second)
    (hseam : ∀ last ∈ first.getLast?, last.MayPrecede second ending) :
    AllValid ending (first ++ second) := by
  induction first with
  | nil => exact hsecond
  | cons slice rest ih =>
      obtain ⟨hslice, hfollow, hrest⟩ := hfirst
      cases rest with
      | nil => exact ⟨hslice, hseam slice rfl, hsecond⟩
      | cons next rest =>
          refine ⟨hslice, ?_, ih hrest (by simpa using hseam)⟩
          cases slice with
          | tag triple inside found => trivial
          | text content => exact ⟨hfollow.1, fun _ => hfollow.2 (.inl (by simp))⟩

theorem allValid_left (h : AllValid .complete (first ++ second)) : AllValid .complete first := by
  induction first with
  | nil => trivial
  | cons slice rest ih =>
      obtain ⟨hslice, hfollow, hrest⟩ := h
      refine ⟨hslice, ?_, ih hrest⟩
      cases slice with
      | tag triple inside found => trivial
      | text content =>
          cases rest with
          | nil => exact ⟨by simp, by simp⟩
          | cons next rest => exact ⟨hfollow.1, fun _ => hfollow.2 (.inl (by simp))⟩

theorem allValid_right (h : AllValid ending (first ++ second)) : AllValid ending second := by
  induction first with
  | nil => exact h
  | cons slice rest ih => exact ih h.2.2

/-- What stands before a text is a tag. -/
theorem isText_of_concat {content : List Char} (h : AllValid ending (first ++ .text content :: second))
    {last : Slice} (hlast : first.getLast? = some last) : last.isText = false := by
  obtain ⟨front, rfl⟩ := List.getLast?_eq_some_iff.1 hlast
  rw [List.append_assoc] at h
  obtain ⟨_, hfollow, _⟩ := allValid_right h
  cases last with
  | tag triple inside found => rfl
  | text before => cases hfollow.1 _ rfl

/-- Two texts at the ends of two lists of slices are one text of both. -/
theorem allValid_join {s t : List Char} (hfirst : AllValid .complete (first ++ [.text s]))
    (hsecond : AllValid ending (.text t :: second)) (hopening : ¬['{', '{'] <:+: s ++ t) :
    AllValid ending (first ++ .text (s ++ t) :: second) := by
  obtain ⟨⟨ht, _⟩, ⟨hapart, hlast⟩, hrest⟩ := hsecond
  refine allValid_append (allValid_left hfirst)
    ⟨⟨by simp [ht], hopening⟩, ⟨hapart, fun hmore => ?_⟩, hrest⟩ fun last hend => ?_
  · rw [List.getLast?_append, Option.or_of_isSome (List.getLast?_isSome.2 ht)]
    exact hlast hmore
  · have hbefore := isText_of_concat hfirst hend
    cases last with
    | tag triple inside found => trivial
    | text content => cases hbefore

theorem getLast?_tokensAfter {before : List Char} {slices : List Slice} {content : String} :
    (tokensAfter before slices).getLast? = some (.text content) ↔
      slices.getLast? = some (.text content.toList) := by
  rcases List.eq_nil_or_concat slices with rfl | ⟨front, last, rfl⟩
  · simp [tokensAfter]
  · rw [List.concat_eq_append, tokensAfter_append, List.getLast?_append, List.getLast?_append]
    cases last with
    | text found =>
        simp only [tokensAfter, token, List.getLast?_singleton, Option.some_or, Option.some.injEq,
          Token.text.injEq, Slice.text.injEq]
        exact ⟨fun h => by rw [← h, String.toList_ofList], fun h => by rw [h, String.ofList_toList]⟩
    | tag triple inside found => simp [tokensAfter, token]

theorem head?_tokensAfter {before : List Char} {slices : List Slice} {content : String} :
    (tokensAfter before slices).head? = some (.text content) ↔
      slices.head? = some (.text content.toList) := by
  cases slices with
  | nil => simp [tokensAfter]
  | cons first rest =>
      cases first with
      | text found =>
          simp only [tokensAfter, token, List.head?_cons, Option.some.injEq, Token.text.injEq,
            Slice.text.injEq]
          exact ⟨fun h => by rw [← h, String.toList_ofList],
            fun h => by rw [h, String.ofList_toList]⟩
      | tag triple inside found => simp [tokensAfter, token]

end Slice

/-- Two equal characters that stand side by side in neither text do so in both only at the seam. -/
theorem not_doubled_append {c : Char} {s t : List Char} (hs : ¬[c, c] <:+: s) (ht : ¬[c, c] <:+: t)
    (hseam : ¬(s.getLast? = some c ∧ t.head? = some c)) : ¬[c, c] <:+: s ++ t := by
  induction s with
  | nil => exact ht
  | cons d s ih =>
      rw [List.infix_cons_iff, not_or] at hs
      obtain ⟨hstart, hlater⟩ := hs
      rw [List.cons_append, List.infix_cons_iff, not_or]
      cases s with
      | nil =>
          refine ⟨fun hopens => hseam ?_, ht⟩
          obtain ⟨rest, hrest⟩ := hopens
          obtain ⟨rfl, rfl⟩ := List.cons.inj hrest
          exact ⟨rfl, rfl⟩
      | cons e s =>
          refine ⟨fun hopens => hstart ?_, ih hlater (by simpa using hseam)⟩
          simpa [List.cons_prefix_cons] using hopens

theorem Ending.failure?_add (ending : Ending) (line lines : Nat) :
    ending.failure? (line + lines) = (ending.failure? line).map (ParseError.shift lines) := by
  rcases ending with _ | _ | ⟨_ | _, _, _⟩ <;> rfl

/-- The two braces that would open a tag do not stand on either side of the seam. -/
def SeamClosed (a b : String) : Prop :=
  ¬(a.toList.getLast? = some '{' ∧ b.toList.head? = some '{')

/-- The text at the end of one source goes on into the text at the start of the other. -/
def TextsMeet (a b s t : String) : Prop :=
  (scan a).tokens.getLast? = some (.text s) ∧ (scan b).tokens.head? = some (.text t)

def shiftAfter (a : String) : Token → Token :=
  Token.shift (a.toList.map Char.utf8Size).sum (Text.countNewlines a.toList)

section Seam

variable {a b s t : String} {first second slices : List Slice} {ending : Ending}

theorem exists_slices (h : (scan a).failure = none) :
    ∃ first, Slice.AllValid .complete first ∧ first.flatMap Slice.source = a.toList ∧
      (scan a).tokens = Slice.tokensAfter [] first := by
  obtain ⟨⟨first, ending⟩, hvalid, hsource⟩ := Segmentation.exists_isValid a.toList
  rw [Segmentation.scan_eq hvalid hsource] at h ⊢
  cases ending with
  | complete => exact ⟨first, hvalid, by rw [← hsource]; exact (List.append_nil _).symm, rfl⟩
  | unclosed triple rest => cases h
  | bare block inside rest => cases h

theorem scan_append_of_allValid (hvalid : Slice.AllValid ending slices)
    (hread : slices.flatMap Slice.source = a.toList ++ second.flatMap Slice.source)
    (hsource : second.flatMap Slice.source ++ ending.source = b.toList)
    (hscan : scan b = Segmentation.scanAfter [] ⟨second, ending⟩) :
    scan (a ++ b) = ⟨Slice.tokensAfter [] slices,
      (scan b).failure.map (ParseError.shift (Text.countNewlines a.toList))⟩ := by
  have hboth : Segmentation.source ⟨slices, ending⟩ = (a ++ b).toList := by
    rw [Segmentation.source, Segmentation.read, hread, List.append_assoc, hsource,
      String.toList_append]
  rw [Segmentation.scan_eq (show Segmentation.IsValid ⟨slices, ending⟩ from hvalid) hboth, hscan]
  simp only [Segmentation.scanAfter, Segmentation.read, hread, List.nil_append,
    Position.after_append, Position.shift, Ending.failure?_add]

theorem mayPrecede_of_seamClosed (hseam : SeamClosed a b) {content : List Char}
    (hlast : a.toList.getLast? = content.getLast?)
    (hsource : second.flatMap Slice.source ++ ending.source = b.toList)
    (happart : ∀ next ∈ second.head?, next.isText = false) :
    (Slice.text content).MayPrecede second ending := by
  refine ⟨happart, fun hmore hbrace => hseam ⟨hlast.trans hbrace, ?_⟩⟩
  obtain ⟨rfl, rfl⟩ | ⟨tag, htag⟩ := Slice.complete_or_opens ending happart
  · rcases hmore with hne | hne <;> exact absurd rfl hne
  · rw [← hsource, htag]
    rfl

theorem TextsMeet.unique {s' t' : String} (h : TextsMeet a b s t) (h' : TextsMeet a b s' t') :
    s = s' ∧ t = t' :=
  ⟨Token.text.inj (Option.some.inj (h.1.symm.trans h'.1)),
    Token.text.inj (Option.some.inj (h.2.symm.trans h'.2))⟩

/-- The last character of a source that ends in a text. -/
theorem getLast?_of_text {content : List Char} (hfirst : Slice.AllValid .complete first)
    (hread : first.flatMap Slice.source = a.toList) (hlast : first.getLast? = some (.text content)) :
    a.toList.getLast? = content.getLast? := by
  obtain ⟨front, rfl⟩ := List.getLast?_eq_some_iff.1 hlast
  have hvalid := Slice.allValid_right hfirst
  rw [← hread, List.flatMap_append, List.getLast?_append]
  simp only [List.flatMap_cons, List.flatMap_nil, List.append_nil, Slice.source]
  exact Option.or_of_isSome (List.getLast?_isSome.2 hvalid.1.1)

/-- Two sources whose texts do not meet: the tokens of one after those of the other. -/
theorem scan_append_of_apart (ha : (scan a).failure = none) (hseam : SeamClosed a b)
    (happart : ¬∃ s t, TextsMeet a b s t) :
    scan (a ++ b) = ⟨(scan a).tokens ++ (scan b).tokens.map (shiftAfter a),
      (scan b).failure.map (ParseError.shift (Text.countNewlines a.toList))⟩ := by
  obtain ⟨first, hfirst, hread, htokens⟩ := exists_slices ha
  obtain ⟨⟨second, ending⟩, hsecond, hsource⟩ := Segmentation.exists_isValid b.toList
  have hscan := Segmentation.scan_eq hsecond hsource
  have hvalid : Slice.AllValid ending (first ++ second) := by
    refine Slice.allValid_append hfirst hsecond fun last hlast => ?_
    cases last with
    | tag triple inside found => trivial
    | text content =>
        refine mayPrecede_of_seamClosed hseam (getLast?_of_text hfirst hread hlast) hsource ?_
        intro next hnext
        cases next with
        | tag triple inside found => rfl
        | text more =>
            refine absurd ⟨String.ofList content, String.ofList more, ?_, ?_⟩ happart
            · rw [htokens, Slice.getLast?_tokensAfter, String.toList_ofList]
              exact hlast
            · rw [hscan, Segmentation.scanAfter, Slice.head?_tokensAfter, String.toList_ofList]
              exact hnext
  rw [scan_append_of_allValid hvalid (by rw [List.flatMap_append, hread]) hsource hscan, htokens,
    hscan, Slice.tokensAfter_append, List.nil_append, hread]
  congr 2
  exact (congrArg (Slice.tokensAfter · second) (List.append_nil _).symm).trans
    (Slice.tokensAfter_shift a.toList [] second)

/-- Two sources whose texts meet: the two texts are one token. -/
theorem scan_append_of_meet (ha : (scan a).failure = none) (hseam : SeamClosed a b)
    (hmeet : TextsMeet a b s t) :
    ∃ before after, (scan a).tokens = before ++ [.text s] ∧ (scan b).tokens = .text t :: after ∧
      scan (a ++ b) = ⟨before ++ .text (s ++ t) :: after.map (shiftAfter a),
        (scan b).failure.map (ParseError.shift (Text.countNewlines a.toList))⟩ := by
  obtain ⟨hlast, hhead⟩ := hmeet
  obtain ⟨first, hfirst, hread, htokens⟩ := exists_slices ha
  obtain ⟨⟨second, ending⟩, hsecond, hsource⟩ := Segmentation.exists_isValid b.toList
  have hscan := Segmentation.scan_eq hsecond hsource
  rw [htokens, Slice.getLast?_tokensAfter] at hlast
  rw [hscan, Segmentation.scanAfter, Slice.head?_tokensAfter] at hhead
  have hend := getLast?_of_text hfirst hread hlast
  obtain ⟨front, rfl⟩ := List.getLast?_eq_some_iff.1 hlast
  obtain ⟨rest, rfl⟩ := List.head?_eq_some_iff.1 hhead
  obtain ⟨⟨_, hopensS⟩, _⟩ := Slice.allValid_right hfirst
  obtain ⟨⟨ht, hopensT⟩, hfollow, hrest⟩ := hsecond
  have hstart : b.toList.head? = t.toList.head? := by
    rw [← hsource]
    obtain ⟨c, others, hcons⟩ := List.exists_cons_of_ne_nil ht
    simp [Segmentation.source, Segmentation.read, Slice.source, hcons]
  have hopens : ¬['{', '{'] <:+: s.toList ++ t.toList :=
    not_doubled_append hopensS hopensT fun hbraces =>
      hseam ⟨hend.trans hbraces.1, hstart.trans hbraces.2⟩
  have hvalid : Slice.AllValid ending (front ++ .text (s.toList ++ t.toList) :: rest) :=
    Slice.allValid_join hfirst ⟨⟨ht, hopensT⟩, hfollow, hrest⟩ hopens
  have hboth : (front ++ .text (s.toList ++ t.toList) :: rest).flatMap Slice.source =
      a.toList ++ (.text t.toList :: rest).flatMap Slice.source := by
    rw [← hread]
    simp [Slice.source]
  refine ⟨Slice.tokensAfter [] front, Slice.tokensAfter t.toList rest, ?_, ?_, ?_⟩
  · rw [htokens, Slice.tokensAfter_append]
    simp [Slice.tokensAfter, Slice.token]
  · rw [hscan]
    simp [Segmentation.scanAfter, Slice.tokensAfter, Slice.token, Slice.source]
  · rw [scan_append_of_allValid hvalid hboth hsource hscan, Slice.tokensAfter_append]
    have hplace : front.flatMap Slice.source ++ (s.toList ++ t.toList) = a.toList ++ t.toList := by
      rw [← hread]
      simp [Slice.source]
    simp only [Slice.tokensAfter, Slice.token, Slice.source, List.nil_append, hplace,
      Slice.tokensAfter_shift, String.ofList_append, String.ofList_toList]
    rfl

theorem parse_append_of_apart {nodes : List Node} (ha : parse a = .ok nodes)
    (hseam : SeamClosed a b) (happart : ¬∃ s t, TextsMeet a b s t) :
    parse (a ++ b) =
      ((parse b).mapError (ParseError.shift (Text.countNewlines a.toList))).map (nodes ++ ·) := by
  obtain ⟨hfailure, htree⟩ := parse_eq_ok_iff.1 ha
  rw [parse, parse, scan_append_of_apart hfailure hseam happart]
  cases (scan b).failure with
  | some e => rfl
  | none =>
      simp only [Option.map_none]
      rw [Node.ofTokens_append (Node.ofTokens_eq_ok_iff.2 htree), shiftAfter, Node.ofTokens_shift]

theorem parse_append_of_meet {nodes : List Node} (ha : parse a = .ok nodes)
    (hseam : SeamClosed a b) (hmeet : TextsMeet a b s t) :
    ∃ (before : List Node) (rest : Except ParseError (List Node)),
      nodes = before ++ [.text s] ∧ parse b = rest.map ([.text t] ++ ·) ∧
      parse (a ++ b) = (rest.mapError (ParseError.shift (Text.countNewlines a.toList))).map
        ((before ++ [.text (s ++ t)]) ++ ·) := by
  obtain ⟨hfailure, htree⟩ := parse_eq_ok_iff.1 ha
  obtain ⟨front, after, hfront, hafter, hscan⟩ := scan_append_of_meet hfailure hseam hmeet
  rw [hfront] at htree
  obtain ⟨before, hbefore, rfl⟩ := Node.ofTokens_concat_text (Node.ofTokens_eq_ok_iff.2 htree)
  rw [parse, parse, hscan]
  cases (scan b).failure with
  | some e => exact ⟨before, .error e, rfl, rfl, rfl⟩
  | none =>
      refine ⟨before, Node.ofTokens after, rfl, by rw [hafter, Node.ofTokens_text], ?_⟩
      simp only [Option.map_none]
      rw [Node.ofTokens_append hbefore, Node.ofTokens_text, shiftAfter, Node.ofTokens_shift,
        Node.map_append_map]

end Seam

/-- **Templates go together by concatenation.** What is wrong with the second template is wrong with
both, further down; and if nothing is, the trees are joined, where a text that goes on across the
seam is one text, and so are the renderings. -/
theorem parse_append (a b : String) (first : List Node) (ha : parse a = .ok first)
    (hseam : SeamClosed a b) :
    (∀ e, parse b = .error e →
      parse (a ++ b) = .error (e.shift (Text.countNewlines a.toList))) ∧
    ∀ second, parse b = .ok second →
      ((¬∃ s t, TextsMeet a b s t) → parse (a ++ b) = .ok (first ++ second)) ∧
      (∀ s t, TextsMeet a b s t → ∃ before after, first = before ++ [.text s] ∧
        second = .text t :: after ∧ parse (a ++ b) = .ok (before ++ .text (s ++ t) :: after)) ∧
      ∀ (renderer : Renderer) (store : Store), renderer.renderText (a ++ b) store =
        (renderer.renderText a store >> renderer.renderText b store) := by
  by_cases hmeet : ∃ s t, TextsMeet a b s t
  · obtain ⟨s, t, hmeet⟩ := hmeet
    obtain ⟨before, rest, rfl, hb, hboth⟩ := parse_append_of_meet ha hseam hmeet
    rw [hb, hboth]
    cases rest with
    | error e => exact ⟨by rintro _ ⟨⟩; rfl, nofun⟩
    | ok after =>
        refine ⟨nofun, ?_⟩
        rintro _ ⟨⟩
        refine ⟨fun hapart => absurd ⟨s, t, hmeet⟩ hapart, ?_, fun renderer store => ?_⟩
        · intro s' t' hmeet'
          obtain ⟨rfl, rfl⟩ := hmeet'.unique hmeet
          exact ⟨before, after, rfl, rfl, by simp [Except.map, Except.mapError]⟩
        · obtain ⟨incl, hincl⟩ := renderer.exists_include
          simp [Renderer.renderText, ha, hb, hboth, Except.map, Except.mapError, hincl,
            Node.renderAll_append, Node.render, Rendering.ofText_append, Rendering.andThen_assoc]
  · have hboth := parse_append_of_apart ha hseam hmeet
    rw [hboth]
    cases hb : parse b with
    | error e => exact ⟨by rintro _ ⟨⟩; rfl, nofun⟩
    | ok second =>
        refine ⟨nofun, ?_⟩
        rintro _ ⟨⟩
        refine ⟨fun _ => rfl, fun s t h => absurd ⟨s, t, h⟩ hmeet, fun renderer store => ?_⟩
        obtain ⟨incl, hincl⟩ := renderer.exists_include
        simp [Renderer.renderText, ha, hb, hboth, Except.map, Except.mapError, hincl,
          Node.renderAll_append]

/-- A text that goes on across the seam, after a brace that opens no tag. -/
theorem parse_append_halves :
    parse "\x7b\x7b/if\x7d\x7dx\n\x7b" = .ok [.text "x\n\x7b"] ∧
      SeamClosed "\x7b\x7b/if\x7d\x7dx\n\x7b" "y\x7b\x7bz\x7d\x7d" ∧
      parse ("\x7b\x7b/if\x7d\x7dx\n\x7b" ++ "y\x7b\x7bz\x7d\x7d") =
        .ok [.text "x\n\x7by", .slot "z"] := by
  have ha : parse "\x7b\x7b/if\x7d\x7dx\n\x7b" = .ok [.text "x\n\x7b"] :=
    parse_eq_ok_iff.2 ⟨by decide, by rfl⟩
  have hb : parse "y\x7b\x7bz\x7d\x7d" = .ok [.text "y", .slot "z"] :=
    parse_eq_ok_iff.2 ⟨by decide, by rfl⟩
  have hseam : SeamClosed "\x7b\x7b/if\x7d\x7dx\n\x7b" "y\x7b\x7bz\x7d\x7d" := by
    simp [SeamClosed]
  have hmeet : TextsMeet "\x7b\x7b/if\x7d\x7dx\n\x7b" "y\x7b\x7bz\x7d\x7d" "x\n\x7b" "y" :=
    ⟨by decide, by decide⟩
  obtain ⟨before, after, hbefore, hafter, hboth⟩ :=
    ((parse_append _ _ _ ha hseam).2 _ hb).2.1 _ _ hmeet
  obtain rfl : before = [] := by simpa using hbefore
  cases hafter
  exact ⟨ha, hseam, hboth⟩

end PromptSheet.Template
