import PromptSheet.Proofs.ByteSlices
import PromptSheet.Proofs.ReadableTag
import PromptSheet.Template.Checked

/-!
# Tokens cut out by their places

The reader that goes through a text by places is compared with the one that takes it apart character
by character. Every place it cuts at is one that it has found by searching, or lies just after what
it has found, so its cuts succeed and give what the other reader gives. For the tokens this follows
the segments of the source: each call cuts out one of them, and starts where the last one ended.
-/

namespace PromptSheet.Template

namespace Checked

variable {α β : Type}

/-- A reading in which no check failed. -/
def done (result : Except ParseError α) : Checked α :=
  ExceptT.mk (some result)

@[simp]
theorem done_ok (value : α) : done (.ok value) = pure value := rfl

theorem lift_some_bind (value : α) (next : α → Checked β) :
    ((liftM (some value) : Checked α) >>= next) = next value := rfl

theorem done_ite (p : Prop) [Decidable p] (first second : Except ParseError α) :
    (if p then done first else done second) = done (if p then first else second) := by
  split <;> rfl

theorem keyword?_eq (s : List Char) : keyword? s = some (Tag.keywordAndRest s) := by
  rw [keyword?, Text.cutAtBlank?_eq]
  rfl

theorem classify?_eq (content : List Char) (line : Nat) :
    classify? content line = done (Tag.ofContent line content) := by
  rw [classify?, Tag.ofContent]
  generalize Text.trim content = content
  unfold Tag.ofTrimmed
  split
  · next block =>
    simp only [keyword?_eq, lift_some_bind, Tag.ofBlock]
    cases Block.ofKeyword? (Tag.keywordAndRest block).1 with
    | none => rfl
    | some block => exact done_ite _ _ _
  · rfl
  · simp only [keyword?_eq, lift_some_bind]
    rfl
  · exact done_ite _ _ _
  · split <;> simp [*]
  · split <;> simp [*]

/-- A quote is one byte long, and so is the equals sign. -/
theorem dropBytes?_cons {c : Char} (hc : c.utf8Size = 1) (front rest : List Char) :
    Text.dropBytes? (Text.byteSize front + 1) (front ++ c :: rest) = some rest := by
  have hcut := Text.dropBytes?_append (front ++ [c]) rest
  rw [Text.byteSize_append, Text.byteSize_cons, hc] at hcut
  simpa using hcut

/-- A text is cut at the place of a character as it is cut at the character itself. -/
theorem cut_eq_cutAtFirst {c : Char} (hc : c.utf8Size = 1) (s : List Char) :
    (Text.findChar? (· == c) s = none ∧ cutAtFirst c s = none) ∨
      ∃ stop before after, Text.findChar? (· == c) s = some stop ∧
        cutAtFirst c s = some (before, after) ∧ Text.takeBytes? stop s = some before ∧
        Text.dropBytes? (stop + 1) s = some after := by
  cases hcut : cutAtFirst c s with
  | none =>
      refine .inl ⟨Text.findChar?_eq_none fun d hd => ?_, rfl⟩
      simpa using fun heq : d = c => cutAtFirst_eq_none_iff.1 hcut (heq ▸ hd)
  | some cut =>
      obtain ⟨hnone, rfl⟩ := cutAtFirst_eq_some hcut
      refine .inr ⟨Text.byteSize cut.1, cut.1, cut.2, ?_, rfl, Text.takeBytes?_append _ _,
        dropBytes?_cons hc _ _⟩
      refine Text.findChar?_append _ (fun d hd => ?_) (by simp)
      simpa using fun heq : d = c => hnone (heq ▸ hd)

theorem quoted?_eq {quote : Char} (hquote : quote.utf8Size = 1) (body : List Char) :
    value?.quoted? (quote :: body) quote = some (readQuoted quote body) := by
  have hbody : Text.dropBytes? 1 (quote :: body) = some body := dropBytes?_cons hquote [] body
  rw [value?.quoted?, hbody, Option.bind_eq_bind, Option.bind_some, readQuoted]
  rcases cut_eq_cutAtFirst hquote body with ⟨hfind, hcut⟩ |
    ⟨stop, before, after, hfind, hcut, htake, hdrop⟩
  · rw [hfind, hcut]
    rfl
  · simp only [hfind, hcut, htake, hdrop]
    rfl

theorem value?_eq (s : List Char) : value? s = some (readValue s) := by
  unfold value? readValue
  split
  · exact quoted?_eq rfl _
  · exact quoted?_eq rfl _
  · simp [Text.cutAtBlank?_eq, *]

theorem parameters?_eq (calls : Nat) (s : List Char) (hcalls : s.length < calls) :
    parameters? calls s = some (readParameters s) := by
  induction calls generalizing s with
  | zero => exact absurd hcalls (Nat.not_lt_zero _)
  | succ calls ih =>
      rw [parameters?]
      rcases cut_eq_cutAtFirst (c := '=') rfl (Text.trimStart s) with ⟨hfind, hcut⟩ |
        ⟨stop, before, after, hfind, hcut, htake, hdrop⟩
      · rw [readParameters_of_cut_eq_none hcut, hfind]
        rfl
      · have hshorter : (readValue after).2.length < calls := by
          have := length_of_cutAtFirst hcut
          have := length_readValue_le after
          have htrim : (Text.trimStart s).length ≤ s.length := (List.dropWhile_suffix _).length_le
          simp only at *
          omega
        rw [readParameters_of_cut_eq_some hcut]
        simp only [hfind, htake, hdrop, value?_eq, ih _ hshorter, Option.bind_eq_bind,
          Option.bind_some]
        split <;> rfl

theorem directive?_eq (s : List Char) : directive? s = some (readDirective s) := by
  rw [directive?, Text.cutAtBlank?_eq, Option.bind_eq_bind, Option.bind_some]
  simp only [parameters?_eq _ _ (Nat.lt_succ_self _)]
  rfl

theorem leaf?_eq (tag : Tag) : leaf? tag = some (Node.ofLeaf? tag).toList := by
  cases tag with
  | inclusion directive =>
      simp only [leaf?, directive?_eq]
      rfl
  | _ => rfl

section Places

variable {triple : Bool} {inside : List Char} (before rest : List Char)

theorem offset_after : (Position.after before).offset = Text.byteSize before := by
  rw [Text.byteSize, Text.bytes, List.length_flatMap]
  simp only [String.length_utf8EncodeChar]
  rfl

theorem lineAt?_append :
    lineAt? (before ++ rest) (Text.byteSize before) = some (Position.after before).line := by
  have hstop : min (Text.byteSize before) (Text.byteSize (before ++ rest)) =
      Text.byteSize before := by
    rw [Text.byteSize_append]
    exact min_eq_left (Nat.le_add_right _ _)
  rw [lineAt?, hstop, Text.bytes_append, take?_append (Text.length_bytes before),
    Option.bind_eq_bind, Option.bind_some, Text.count_bytes]
  rfl

theorem isPrefixOf_opener (h : triple = false → rest.head? ≠ some '{') :
    ['{', '{', '{'].isPrefixOf (opener triple ++ rest) = triple := by
  cases triple with
  | true => rfl
  | false =>
      cases rest with
      | nil => rfl
      | cons c rest => simpa [opener, List.isPrefixOf] using (h rfl).symm

/-- The closing braces are looked for right after the open ones, and the tag ends after them. -/
theorem tagAt?_opener (h : triple = false → rest.head? ≠ some '{') :
    tagAt? (before ++ (opener triple ++ rest)) (Text.byteSize before) =
      match Text.find? (closer triple) rest with
      | none => throw (.unclosedTag triple (Position.after before).line)
      | some size => do
        let content ← Text.sliceBytes? (Text.byteSize (before ++ opener triple))
          (Text.byteSize (before ++ opener triple) + size) (before ++ (opener triple ++ rest))
        let tag ← done (Tag.ofInside triple (Position.after before).line content)
        return (.tag tag (Text.byteSize before),
          Text.byteSize (before ++ opener triple) + size + Text.byteSize (closer triple)) := by
  have hcontent : Text.dropBytes? (Text.byteSize (before ++ opener triple))
      (before ++ (opener triple ++ rest)) = some rest := by
    rw [← List.append_assoc, Text.dropBytes?_append]
  rw [tagAt?]
  simp only [Text.dropBytes?_append, lift_some_bind, isPrefixOf_opener rest h, lineAt?_append]
  rw [← opener, ← closer, ← Text.byteSize_append, hcontent, lift_some_bind]
  cases Text.find? (closer triple) rest with
  | none => rfl
  | some size =>
    cases triple with
    | true => rfl
    | false =>
      simp only [Bool.false_eq_true, if_false, classify?_eq]
      rfl

theorem tagAt?_inside (h : IsInside triple inside) :
    tagAt? (before ++ (opener triple ++ (inside ++ (closer triple ++ rest)))) (Text.byteSize before) =
      done ((Tag.ofInside triple (Position.after before).line inside).map fun found =>
        (.tag found (Text.byteSize before),
          Text.byteSize (before ++ (opener triple ++ (inside ++ closer triple))))) := by
  have hslice := Text.sliceBytes?_append (before ++ opener triple) inside (closer triple ++ rest)
  rw [List.append_assoc] at hslice
  rw [tagAt?_opener before _ (h.head?_append rest),
    Text.find?_append (closer_ne_nil triple) rest h.noCloser]
  dsimp only
  rw [hslice, lift_some_bind]
  cases Tag.ofInside triple (Position.after before).line inside with
  | error e => rfl
  | ok found =>
      simp only [Text.byteSize_append, Nat.add_assoc]
      rfl

theorem tagAt?_unclosed (h : IsUnclosed triple rest) :
    tagAt? (before ++ (opener triple ++ rest)) (Text.byteSize before) =
      throw (.unclosedTag triple (Position.after before).line) := by
  rw [tagAt?_opener before rest h.notTriple, Text.find?_eq_none h.noCloser]

theorem lexemeAt?_opener :
    lexemeAt? (before ++ (opener triple ++ rest)) (Text.byteSize before) =
      some <$> tagAt? (before ++ (opener triple ++ rest)) (Text.byteSize before) := by
  obtain ⟨tag, htag⟩ := Slice.exists_opener triple rest
  have hfind : Text.find? ['{', '{'] (opener triple ++ rest) = some 0 := by
    rw [htag]
    rfl
  have hbefore : ¬Text.byteSize (before ++ (opener triple ++ rest)) ≤ Text.byteSize before := by
    have := Text.byteSize_pos (s := opener triple ++ rest) (by rw [htag]; simp)
    rw [Text.byteSize_append]
    omega
  rw [lexemeAt?, if_neg hbefore, Text.dropBytes?_append, lift_some_bind, hfind]
  rfl

theorem lexemeAt?_text {content : List Char} (hne : content ≠ [])
    (hopening : ¬['{', '{'] <:+: content)
    (hrest : rest = [] ∨ content.getLast? ≠ some '{' ∧ ∃ tag, rest = '{' :: '{' :: tag) :
    lexemeAt? (before ++ (content ++ rest)) (Text.byteSize before) =
      pure (some (.text (String.ofList content), Text.byteSize (before ++ content))) := by
  have hsize := Text.byteSize_pos hne
  have hbefore : ¬Text.byteSize (before ++ (content ++ rest)) ≤ Text.byteSize before := by
    rw [Text.byteSize_append, Text.byteSize_append]
    omega
  rw [lexemeAt?, if_neg hbefore, Text.dropBytes?_append, lift_some_bind]
  obtain rfl | ⟨hlast, tag, rfl⟩ := hrest
  · rw [List.append_nil, Text.find?_eq_none hopening]
  · have hfirst : ¬['{', '{'] <:+: content ++ ['{'] := by
      rw [List.infix_concat_iff, not_or]
      refine ⟨?_, hopening⟩
      rintro ⟨front, hfront⟩
      have hcontent : (front ++ ['{']) ++ ['{'] = content ++ ['{'] := by simpa using hfront
      exact hlast (List.append_cancel_right hcontent ▸ List.getLast?_concat)
    have hfind := Text.find?_append (by simp) tag hfirst
    rw [List.cons_append, List.cons_append, List.nil_append] at hfind
    have htake := Text.takeBytes?_append content ('{' :: '{' :: tag)
    obtain ⟨size, hsize⟩ := Nat.exists_eq_add_one_of_ne_zero (Nat.ne_of_gt hsize)
    rw [hsize] at hfind htake
    rw [hfind, Text.byteSize_append before content, hsize]
    simp only [htake]
    rfl

end Places

end Checked

/-- The token as it is found in memory. -/
def Token.lexeme : Token → Checked.Lexeme
  | .text content => .text content
  | .tag found start => .tag found start.offset

/-- No slice is empty, so there are no more of them than bytes. -/
theorem Slice.length_le_byteSize {ending : Ending} {slices : List Slice}
    (h : AllValid ending slices) :
    slices.length ≤ Text.byteSize (slices.flatMap source ++ ending.source) := by
  induction slices with
  | nil => exact Nat.zero_le _
  | cons slice rest ih =>
      obtain ⟨hslice, -, hrest⟩ := h
      have hne : slice.source ≠ [] := by
        cases slice with
        | text content => exact hslice.1
        | tag triple inside found => cases triple <;> exact List.cons_ne_nil _ _
      have hsize := Text.byteSize_pos hne
      have hlength := ih hrest
      rw [List.flatMap_cons, List.append_assoc, Text.byteSize_append, List.length_cons]
      omega

/-- A fault anywhere in the text leaves no tokens. -/
def Scan.outcome (scan : Scan) : Except ParseError (List Token) :=
  match scan.failure with
  | some e => .error e
  | none => .ok scan.tokens

theorem parse_eq (source : String) : parse source = (scan source).outcome.bind Node.ofTokens := by
  rw [parse, Scan.outcome]
  cases (scan source).failure <;> rfl

namespace Checked

section Slices

variable {ending : Ending} {slices : List Slice} {slice : Slice} (before : List Char)

theorem lexemeAt?_slice (h : slice.IsValid) (hfollow : slice.MayPrecede slices ending) :
    lexemeAt? (before ++ (slice.source ++ (slices.flatMap Slice.source ++ ending.source)))
        (Text.byteSize before) =
      pure (some ((slice.token (.after before)).lexeme, Text.byteSize (before ++ slice.source))) := by
  cases slice with
  | text content =>
      obtain ⟨hne, hopening⟩ := h
      obtain ⟨hapart, hlast⟩ := hfollow
      refine lexemeAt?_text before _ hne hopening ?_
      by_cases hend : slices = [] ∧ ending = .complete
      · obtain ⟨rfl, rfl⟩ := hend
        exact .inl rfl
      · have htag := (Slice.complete_or_opens ending hapart).resolve_left hend
        rw [not_and_or] at hend
        exact .inr ⟨hlast hend, htag⟩
  | tag triple inside found =>
      obtain ⟨hinside, hfound⟩ := h
      have htag := tagAt?_inside before (slices.flatMap Slice.source ++ ending.source) hinside
      rw [hfound] at htag
      simp only [Slice.source, List.append_assoc]
      rw [lexemeAt?_opener, htag, Slice.token, Token.lexeme, offset_after]
      rfl

theorem lexemeAt?_ending (h : ending.IsValid) :
    lexemeAt? (before ++ ending.source) (Text.byteSize before) =
      match ending.failure? (Position.after before).line with
      | some e => throw e
      | none => pure none := by
  cases ending with
  | complete =>
      rw [Ending.source, List.append_nil, lexemeAt?, if_pos (Nat.le_refl _)]
      rfl
  | unclosed triple rest =>
      rw [Ending.source, lexemeAt?_opener, tagAt?_unclosed before rest h]
      rfl
  | bare block inside rest =>
      obtain ⟨hinside, hbare⟩ := h
      have hread : Tag.ofInside false (Position.after before).line inside =
          .error (.missing block (Position.after before).line) :=
        Tag.ofContent_eq_error_iff.2 ⟨block, hbare, rfl⟩
      rw [Ending.source, lexemeAt?_opener, tagAt?_inside before rest hinside, hread]
      rfl

/-- Each call cuts out one slice and leaves one call less for those after it. -/
theorem lexemesFrom?_slices {calls : Nat} (h : Slice.AllValid ending slices)
    (hcalls : slices.length < calls) :
    lexemesFrom? (before ++ (slices.flatMap Slice.source ++ ending.source)) calls
        (Text.byteSize before) =
      done ((Segmentation.scanAfter before ⟨slices, ending⟩).outcome.map
        (List.map Token.lexeme)) := by
  induction slices generalizing before calls with
  | nil =>
      obtain ⟨calls, rfl⟩ := Nat.exists_eq_add_one_of_ne_zero (Nat.ne_zero_of_lt hcalls)
      rw [List.flatMap_nil, List.nil_append, lexemesFrom?, lexemeAt?_ending before h]
      simp only [Segmentation.scanAfter, Segmentation.read, List.flatMap_nil, List.append_nil,
        Scan.outcome]
      cases ending.failure? (Position.after before).line <;> rfl
  | cons slice rest ih =>
      obtain ⟨hslice, hfollow, hrest⟩ := h
      obtain ⟨calls, rfl⟩ := Nat.exists_eq_add_one_of_ne_zero (Nat.ne_zero_of_lt hcalls)
      have hnext := ih (before ++ slice.source) hrest (Nat.lt_of_succ_lt_succ hcalls)
      rw [List.append_assoc] at hnext
      rw [lexemesFrom?, List.flatMap_cons, List.append_assoc, lexemeAt?_slice before hslice hfollow,
        pure_bind]
      dsimp only
      rw [hnext]
      simp only [Segmentation.scanAfter, Segmentation.read, List.flatMap_cons, List.append_assoc,
        Scan.outcome, Slice.tokensAfter]
      cases ending.failure? _ <;> rfl

end Slices

end Checked

end PromptSheet.Template
