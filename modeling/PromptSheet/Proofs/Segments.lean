import Mathlib.Algebra.GroupWithZero.Nat
import PromptSheet.Proofs.WrittenTag
import PromptSheet.Text.Line

/-!
# The segments of a source

A source falls into texts and tags, one after the other, until its end or the first tag at fault.
The delimiters alone decide where they meet: a text ends where two open braces first stand side by
side, and a tag at the first closing braces that match its open ones. So there is just one way to
cut a source up, and the tokens of the scanner are its pieces in their order.
-/

namespace PromptSheet.Template

section First

variable {α : Type} {pattern s inside inside' rest rest' : List α}

theorem not_occurs_dropLast (h : pattern ≠ []) : ¬pattern <:+: pattern.dropLast := by
  intro hwithin
  have hle := hwithin.length_le
  have hpos := List.length_pos_of_ne_nil h
  rw [List.length_dropLast] at hle
  omega

theorem append_dropLast_prefix_append (inside rest : List α) :
    inside ++ pattern.dropLast <+: inside ++ (pattern ++ rest) := by
  have hshort : pattern.dropLast <+: pattern := List.dropLast_prefix pattern
  exact (List.prefix_append_right_inj inside).2 (hshort.trans (List.prefix_append pattern rest))

theorem exists_first_occurrence (h : pattern ≠ []) (hs : pattern <:+: s) :
    ∃ inside rest, s = inside ++ (pattern ++ rest) ∧ ¬pattern <:+: inside ++ pattern.dropLast := by
  induction s with
  | nil => exact absurd (List.eq_nil_of_infix_nil hs) h
  | cons c s ih =>
      by_cases hstarts : pattern <+: c :: s
      · obtain ⟨rest, hrest⟩ := hstarts
        exact ⟨[], rest, hrest.symm, not_occurs_dropLast h⟩
      · obtain ⟨inside, rest, rfl, hfirst⟩ := ih ((List.infix_cons_iff.1 hs).resolve_left hstarts)
        refine ⟨c :: inside, rest, rfl, fun hwithin => ?_⟩
        rcases List.infix_cons_iff.1 hwithin with hstart | hlater
        · refine hstarts (hstart.trans ?_)
          exact List.cons_prefix_cons.2 ⟨rfl, append_dropLast_prefix_append inside rest⟩
        · exact hfirst hlater

theorem first_occurrence_le (h : pattern ≠ []) (hfirst : ¬pattern <:+: inside ++ pattern.dropLast)
    (heq : inside ++ (pattern ++ rest) = inside' ++ (pattern ++ rest')) :
    inside <+: inside' := by
  rcases List.append_eq_append_iff.1 heq with ⟨more, rfl, _⟩ | ⟨more, rfl, hmore⟩
  · exact List.prefix_append inside more
  · rcases List.eq_nil_or_concat more with rfl | ⟨front, c, rfl⟩
    · simp
    · refine absurd ?_ hfirst
      have hstarts : pattern <+: (front ++ [c]) ++ pattern.dropLast := by
        have hwhole : pattern <+: pattern ++ rest' := List.prefix_append pattern rest'
        refine List.prefix_of_prefix_length_le hwhole ?_ ?_
        · rw [hmore, List.concat_eq_append]
          exact append_dropLast_prefix_append (front ++ [c]) rest
        · have hpos := List.length_pos_of_ne_nil h
          simp only [List.length_append, List.length_dropLast, List.length_singleton]
          omega
      obtain ⟨tail, htail⟩ := hstarts
      refine ⟨inside', tail, ?_⟩
      rw [List.append_assoc, htail]
      simp

theorem eq_of_first_occurrence (h : pattern ≠ []) (hfirst : ¬pattern <:+: inside ++ pattern.dropLast)
    (hfirst' : ¬pattern <:+: inside' ++ pattern.dropLast)
    (heq : inside ++ (pattern ++ rest) = inside' ++ (pattern ++ rest')) : inside = inside' :=
  (first_occurrence_le h hfirst heq).eq_of_length_le (first_occurrence_le h hfirst' heq.symm).length_le

end First

/-- What stands in a tag that lacks what it is about: the word of a block without an argument, or
(`none`) the mark of an inclusion without a name. -/
def IsBare : Option Block → List Char → Prop
  | some block, inside =>
    ∃ blanks, (∀ c ∈ blanks, Text.isBlank c = true) ∧
      Text.trim inside = '#' :: (blanks ++ block.keyword)
  | none, inside => Text.trim inside = ['>']

def ParseError.missing : Option Block → Nat → ParseError
  | some block, line => .missingArgument block line
  | none, line => .missingName line

namespace Tag

variable {line : Nat} {block content inside : List Char} {e : ParseError}

theorem keyword_of_ofKeyword? {found : Block} (h : Block.ofKeyword? block = some found) :
    found.keyword = block := by
  have := List.find?_some h
  simpa using this

theorem ofBlock_eq_error (hlast : ∀ c ∈ block.getLast?, Text.isBlank c = false)
    (h : ofBlock line content block = .error e) :
    ∃ found : Block, (∃ blanks, (∀ c ∈ blanks, Text.isBlank c = true) ∧
      block = blanks ++ found.keyword) ∧ e = .missingArgument found line := by
  simp only [ofBlock] at h
  split at h
  · cases h
  · next found hfound =>
    by_cases hempty : (keywordAndRest block).2.isEmpty = true
    · rw [if_pos hempty] at h
      cases h
      obtain ⟨blanks, hblanks, hblock⟩ := Text.exists_blanks_append hlast
      have hwhole := Text.cutAtBlank_append (Text.trim block)
      have hrest : (Text.cutAtBlank (Text.trim block)).2 = [] := by
        refine Text.eq_nil_of_isBlank
          (Text.trim_eq_nil_iff.1 (List.isEmpty_iff.1 hempty)) fun c hc => ?_
        refine (Text.isTrimmed_trim block).2 c ?_
        rw [← hwhole, List.getLast?_append]
        simp [Option.mem_def.1 hc]
      rw [hrest, List.append_nil] at hwhole
      refine ⟨found, ⟨blanks, hblanks, ?_⟩, rfl⟩
      rw [keyword_of_ofKeyword? hfound, keywordAndRest, hwhole]
      exact hblock
    · rw [if_neg hempty] at h
      cases h

theorem ofBlock_bare {found : Block} {blanks : List Char}
    (hblanks : ∀ c ∈ blanks, Text.isBlank c = true) :
    ofBlock line content (blanks ++ found.keyword) = .error (.missingArgument found line) := by
  have hsolid := isSolid_keyword found
  simp only [ofBlock, keywordAndRest, Text.trim_blanks_append hblanks hsolid.isTrimmed,
    Text.cutAtBlank_of_isSolid hsolid, ofKeyword?_keyword]
  rfl

theorem ofContent_eq_error_iff :
    ofContent line inside = .error e ↔ ∃ block, IsBare block inside ∧ e = .missing block line := by
  constructor
  · intro h
    rw [ofContent] at h
    generalize hcontent : Text.trim inside = content at h
    have htrimmed : Text.IsTrimmed content := hcontent ▸ Text.isTrimmed_trim inside
    unfold ofTrimmed at h
    split at h
    · next block =>
      obtain ⟨found, ⟨blanks, hblanks, rfl⟩, rfl⟩ :=
        ofBlock_eq_error (Text.getLast?_tail htrimmed.2) h
      exact ⟨some found, ⟨blanks, hblanks, hcontent⟩, rfl⟩
    · cases h
    · cases h
    · next rest =>
      by_cases hempty : (Text.trim rest).isEmpty = true
      · simp only [hempty, if_true] at h
        cases h
        have hrest : rest = [] :=
          Text.eq_nil_of_isBlank (Text.trim_eq_nil_iff.1 (List.isEmpty_iff.1 hempty))
            (Text.getLast?_tail htrimmed.2)
        exact ⟨none, by rw [IsBare, hcontent, hrest], rfl⟩
      · simp only [hempty] at h
        cases h
    · split at h <;> cases h
    · split at h <;> cases h
  · rintro ⟨_ | found, hbare, rfl⟩
    · have hbare : Text.trim inside = ['>'] := hbare
      rw [ofContent, hbare]
      rfl
    · obtain ⟨blanks, hblanks, hinside⟩ := hbare
      rw [ofContent, hinside]
      exact ofBlock_bare hblanks

theorem ofBlock_of_ok {found : Tag} (h : ofBlock line content block = .ok found) (other : Nat) :
    ofBlock other content block = .ok found := by
  simp only [ofBlock] at h ⊢
  split at h
  · exact h
  · by_cases hempty : (keywordAndRest block).2.isEmpty = true
    · simp [hempty] at h
    · simpa [hempty] using h

theorem ofTrimmed_of_ok {found : Tag} (h : ofTrimmed line content = .ok found) (other : Nat) :
    ofTrimmed other content = .ok found := by
  unfold ofTrimmed at h ⊢
  split at h
  · exact ofBlock_of_ok h other
  · exact h
  · exact h
  · next rest =>
    by_cases hempty : (Text.trim rest).isEmpty = true
    · simp [hempty] at h
    · simpa [hempty] using h
  · exact h
  · exact h

/-- A line matters to a tag at fault only. -/
theorem ofInside_of_ok {triple : Bool} {found : Tag} (h : ofInside triple line inside = .ok found)
    (other : Nat) : ofInside triple other inside = .ok found := by
  cases triple with
  | true => exact h
  | false =>
      have hcontent : ofContent line inside = .ok found := h
      show ofContent other inside = .ok found
      rw [ofContent] at hcontent ⊢
      exact ofTrimmed_of_ok hcontent other

end Tag

/-- The place after some text: its bytes, and one more than its newlines. -/
def Position.after (before : List Char) : Position where
  offset := (before.map Char.utf8Size).sum
  line := Text.countNewlines before + 1

/-- A piece of a source that stands for one token. -/
inductive Slice where
  | text (content : List Char)
  | tag (triple : Bool) (inside : List Char) (found : Tag)

/-- What comes after the last token: the end of the source, or a tag at fault and all that follows
it. -/
inductive Ending where
  | complete
  | unclosed (triple : Bool) (rest : List Char)
  | bare (block : Option Block) (inside rest : List Char)

namespace Ending

def source : Ending → List Char
  | complete => []
  | unclosed triple rest => opener triple ++ rest
  | bare _ inside rest => opener false ++ (inside ++ (closer false ++ rest))

def failure? (line : Nat) : Ending → Option ParseError
  | complete => none
  | unclosed triple _ => some (.unclosedTag triple line)
  | bare block _ _ => some (.missing block line)

def IsValid : Ending → Prop
  | complete => True
  | unclosed triple rest => IsUnclosed triple rest
  | bare block inside _ => IsInside false inside ∧ IsBare block inside

end Ending

namespace Slice

def source : Slice → List Char
  | text content => content
  | tag triple inside _ => opener triple ++ (inside ++ closer triple)

def token (start : Position) : Slice → Token
  | text content => .text (String.ofList content)
  | tag _ _ found => .tag found start

def isText : Slice → Bool
  | text _ => true
  | tag .. => false

def IsValid : Slice → Prop
  | text content => content ≠ [] ∧ ¬['{', '{'] <:+: content
  | tag triple inside found =>
    IsInside triple inside ∧ ∀ line, Tag.ofInside triple line inside = .ok found

/-- A text stands next to no other text, and makes no brace of its own part of a tag. -/
def MayPrecede (rest : List Slice) (ending : Ending) : Slice → Prop
  | text content =>
    (∀ next ∈ rest.head?, next.isText = false) ∧
      (rest ≠ [] ∨ ending ≠ .complete → content.getLast? ≠ some '{')
  | tag .. => True

def AllValid (ending : Ending) : List Slice → Prop
  | [] => ending.IsValid
  | slice :: rest => slice.IsValid ∧ slice.MayPrecede rest ending ∧ AllValid ending rest

/-- The tokens of the slices when `before` stands in front of them. -/
def tokensAfter (before : List Char) : List Slice → List Token
  | [] => []
  | slice :: rest => slice.token (.after before) :: tokensAfter (before ++ slice.source) rest

theorem tokensAfter_append (before : List Char) (first second : List Slice) :
    tokensAfter before (first ++ second) =
      tokensAfter before first ++ tokensAfter (before ++ first.flatMap source) second := by
  induction first generalizing before with
  | nil => simp [tokensAfter]
  | cons slice first ih => simp [tokensAfter, ih]

end Slice

structure Segmentation where
  slices : List Slice
  ending : Ending

namespace Segmentation

/-- The part of the source that the tokens stand for. -/
def read (segments : Segmentation) : List Char :=
  segments.slices.flatMap Slice.source

def source (segments : Segmentation) : List Char :=
  segments.read ++ segments.ending.source

def IsValid (segments : Segmentation) : Prop :=
  Slice.AllValid segments.ending segments.slices

/-- What the scanner has to report if these are the segments and `before` stands in front of them.
-/
def scanAfter (before : List Char) (segments : Segmentation) : Scan where
  tokens := Slice.tokensAfter before segments.slices
  failure := segments.ending.failure? (Position.after (before ++ segments.read)).line

end Segmentation

/-! ### The scanner finds the segments

After each segment the scanner is in the mode for texts again, at the place after all that it has
read, so the rest of the source is read as one of its own, but for its place.
-/

namespace Position

theorem advance_after (before : List Char) (c : Char) :
    (after before).advance c = after (before ++ [c]) := by
  simp only [after, advance, Text.countNewlines, List.map_append, List.sum_append, List.count_append]
  by_cases h : c = '\n' <;> simp [h]

theorem advanceAll_after (before s : List Char) :
    (after before).advanceAll s = after (before ++ s) := by
  induction s generalizing before with
  | nil => simp [advanceAll]
  | cons c s ih =>
      rw [show (after before).advanceAll (c :: s) = ((after before).advance c).advanceAll s from rfl,
        advance_after, ih]
      simp

end Position

theorem scanFrom_last_text {content : List Char} (p : Position) (hne : content ≠ [])
    (hopening : ¬['{', '{'] <:+: content) :
    scanFrom (.text []) p content = ⟨[.text (String.ofList content)], none⟩ := by
  have hscan : scanFrom (.text []) p (content ++ []) =
      scanFrom (.text (content.reverse ++ [])) (p.advanceAll content) [] :=
    scanFrom_text_append p (by simpa using hopening)
  rw [List.append_nil] at hscan
  rw [hscan]
  simp [scanFrom, Mode.finish, Token.ofSeen, hne]

namespace Slice

variable {ending : Ending} {slices : List Slice}

theorem exists_opener (triple : Bool) (rest : List Char) :
    ∃ tag, opener triple ++ rest = '{' :: '{' :: tag := by
  cases triple <;> exact ⟨_, rfl⟩

theorem complete_or_opens (ending : Ending) (hfirst : ∀ next ∈ slices.head?, next.isText = false) :
    slices = [] ∧ ending = .complete ∨
      ∃ tag, slices.flatMap source ++ ending.source = '{' :: '{' :: tag := by
  cases slices with
  | cons first rest =>
      cases first with
      | text content => cases hfirst _ rfl
      | tag triple inside found =>
          simp only [List.flatMap_cons, source, List.append_assoc]
          exact .inr (exists_opener triple _)
  | nil =>
      cases ending with
      | complete => exact .inl ⟨rfl, rfl⟩
      | unclosed triple rest => exact .inr (exists_opener triple rest)
      | bare block inside rest => exact .inr (exists_opener false _)

theorem scanFrom_ending (h : ending.IsValid) (before : List Char) :
    scanFrom (.text []) (.after before) ending.source =
      ⟨[], ending.failure? (Position.after before).line⟩ := by
  cases ending with
  | complete => rfl
  | unclosed triple rest => exact h.scanFrom (.after before)
  | bare block inside rest =>
      obtain ⟨hinside, hbare⟩ := h
      have hread : Tag.ofInside false (Position.after before).line inside =
          .error (.missing block (Position.after before).line) :=
        Tag.ofContent_eq_error_iff.2 ⟨block, hbare, rfl⟩
      have hscan := hinside.scanFrom (.after before) rest
      rw [hread] at hscan
      exact hscan

/-- **The scanner finds the segments** of a source, wherever it stands. -/
theorem scanFrom_slices (h : AllValid ending slices) (before : List Char) :
    scanFrom (.text []) (.after before) (slices.flatMap source ++ ending.source) =
      Segmentation.scanAfter before ⟨slices, ending⟩ := by
  induction slices generalizing before with
  | nil =>
      rw [List.flatMap_nil, List.nil_append, scanFrom_ending h]
      simp [Segmentation.scanAfter, Segmentation.read, tokensAfter]
  | cons slice rest ih =>
      obtain ⟨hslice, hfollow, hrest⟩ := h
      have hnext := ih hrest (before ++ slice.source)
      have hafter : (Segmentation.scanAfter (before ++ slice.source) ⟨rest, ending⟩).after
          [slice.token (.after before)] = Segmentation.scanAfter before ⟨slice :: rest, ending⟩ := by
        simp [Segmentation.scanAfter, Segmentation.read, Scan.after, tokensAfter]
      rw [← hafter, ← hnext, ← Position.advanceAll_after, List.flatMap_cons, List.append_assoc]
      cases slice with
      | tag triple inside found =>
          obtain ⟨hinside, hfound⟩ := hslice
          have hscan := hinside.scanFrom (.after before) (rest.flatMap source ++ ending.source)
          rw [hfound] at hscan
          simpa [source, token] using hscan
      | text content =>
          obtain ⟨hne, hopening⟩ := hslice
          obtain ⟨hapart, hlast⟩ := hfollow
          by_cases hend : rest = [] ∧ ending = .complete
          · obtain ⟨rfl, rfl⟩ := hend
            rw [show source (.text content) ++ _ = content by simp [source, Ending.source],
              scanFrom_last_text _ hne hopening]
            rfl
          · have htag := (complete_or_opens ending hapart).resolve_left hend
            rw [not_and_or] at hend
            exact scanFrom_literal _ ⟨hne, hopening, hlast hend⟩ (.inr htag)

end Slice

/-- A text is read up to the first two open braces. -/
theorem exists_text (source : List Char) :
    ∃ content rest, source = content ++ rest ∧ ¬['{', '{'] <:+: content ∧
      (rest = [] ∨ content.getLast? ≠ some '{' ∧ ∃ tag, rest = '{' :: '{' :: tag) := by
  induction source with
  | nil => exact ⟨[], [], rfl, by simp, .inl rfl⟩
  | cons c source ih =>
      by_cases hopens : ['{', '{'] <+: c :: source
      · obtain ⟨tag, htag⟩ := hopens
        exact ⟨[], c :: source, rfl, by simp, .inr ⟨by simp, tag, htag.symm⟩⟩
      · obtain ⟨content, rest, rfl, hopening, hrest⟩ := ih
        refine ⟨c :: content, rest, rfl, fun hwithin => ?_, hrest.imp_right fun ⟨hlast, htag⟩ => ?_⟩
        · rcases List.infix_cons_iff.1 hwithin with hstart | hlater
          · exact hopens (hstart.trans ⟨rest, rfl⟩)
          · exact hopening hlater
        · refine ⟨?_, htag⟩
          obtain ⟨tag, rfl⟩ := htag
          cases content with
          | nil =>
              rintro ⟨⟩
              exact hopens ⟨'{' :: tag, rfl⟩
          | cons d content => simpa using hlast

theorem closer_ne_nil (triple : Bool) : closer triple ≠ [] := by
  cases triple <;> simp [closer]

theorem exists_opener_append (tag : List Char) :
    ∃ triple body, '{' :: '{' :: tag = opener triple ++ body ∧
      (triple = false → body.head? ≠ some '{') := by
  by_cases h : ∃ body, tag = '{' :: body
  · obtain ⟨body, rfl⟩ := h
    exact ⟨true, body, rfl, by simp⟩
  · refine ⟨false, tag, rfl, fun _ hhead => h ?_⟩
    obtain ⟨body, rfl⟩ := List.head?_eq_some_iff.1 hhead
    exact ⟨body, rfl⟩

theorem IsInside.of_append {triple : Bool} {inside rest : List Char}
    (hfirst : ¬closer triple <:+: inside ++ (closer triple).dropLast)
    (hopener : triple = false → (inside ++ (closer triple ++ rest)).head? ≠ some '{') :
    IsInside triple inside := by
  refine ⟨hfirst, fun htriple hhead => hopener htriple ?_⟩
  rw [List.head?_append, hhead]
  rfl

namespace Segmentation

theorem exists_of_tag (tag : List Char)
    (hshorter : ∀ rest : List Char, rest.length < tag.length + 2 →
      ∃ segments : Segmentation, segments.IsValid ∧ segments.source = rest) :
    ∃ segments : Segmentation, segments.IsValid ∧ segments.source = '{' :: '{' :: tag ∧
      ∀ next ∈ segments.slices.head?, next.isText = false := by
  obtain ⟨triple, body, hbody, hopener⟩ := exists_opener_append tag
  have hlength : body.length ≤ tag.length := by
    have := congrArg List.length hbody
    cases triple <;> simp [opener] at this <;> omega
  rw [hbody]
  by_cases hclosed : closer triple <:+: body
  · obtain ⟨inside, rest, rfl, hfirst⟩ := exists_first_occurrence (closer_ne_nil triple) hclosed
    have hinside : IsInside triple inside := .of_append hfirst hopener
    cases hfound : Tag.ofInside triple 1 inside with
    | ok found =>
        have hrest : rest.length < tag.length + 2 := by
          simp only [List.length_append] at hlength
          omega
        obtain ⟨⟨slices, ending⟩, hvalid, rfl⟩ := hshorter rest hrest
        refine ⟨⟨.tag triple inside found :: slices, ending⟩,
          ⟨⟨hinside, Tag.ofInside_of_ok hfound⟩, trivial, hvalid⟩, ?_, ?_⟩
        · simp [source, read, Slice.source]
        · rintro next ⟨⟩
          rfl
    | error e =>
        cases triple with
        | true => cases hfound
        | false =>
            obtain ⟨block, hbare, _⟩ := Tag.ofContent_eq_error_iff.1 hfound
            exact ⟨⟨[], .bare block inside rest⟩, ⟨hinside, hbare⟩, rfl, by simp⟩
  · exact ⟨⟨[], .unclosed triple body⟩, ⟨hclosed, hopener⟩, rfl, by simp⟩

theorem exists_isValid (source : List Char) :
    ∃ segments : Segmentation, segments.IsValid ∧ segments.source = source := by
  induction hlength : source.length using Nat.strong_induction_on generalizing source with
  | _ length ih =>
      subst hlength
      obtain ⟨content, rest, rfl, hopening, hrest⟩ := exists_text source
      obtain rfl | ⟨hlast, tag, rfl⟩ := hrest
      · by_cases hne : content = []
        · subst hne
          exact ⟨⟨[], .complete⟩, trivial, rfl⟩
        · refine ⟨⟨[.text content], .complete⟩, ⟨⟨hne, hopening⟩, ⟨by simp, by simp⟩, trivial⟩, ?_⟩
          simp [Segmentation.source, read, Slice.source, Ending.source]
      · obtain ⟨segments, hvalid, hsource, hapart⟩ := exists_of_tag tag fun rest hrest =>
          ih rest.length (by simp only [List.length_append, List.length_cons]; omega) rest rfl
        by_cases hne : content = []
        · subst hne
          exact ⟨segments, hvalid, hsource⟩
        · refine ⟨⟨.text content :: segments.slices, segments.ending⟩,
            ⟨⟨hne, hopening⟩, ⟨hapart, fun _ => hlast⟩, hvalid⟩, ?_⟩
          rw [← hsource]
          simp [Segmentation.source, read, Slice.source]

end Segmentation

theorem opener_append_inj {triple triple' : Bool} {body body' : List Char}
    (h : opener triple ++ body = opener triple' ++ body')
    (hopener : triple = false → body.head? ≠ some '{')
    (hopener' : triple' = false → body'.head? ≠ some '{') : triple = triple' ∧ body = body' := by
  cases triple with
  | false =>
      cases triple' with
      | false => exact ⟨rfl, List.append_cancel_left h⟩
      | true =>
          have hbody : body = '{' :: body' := by simpa [opener] using h
          exact absurd (by rw [hbody]; rfl) (hopener rfl)
  | true =>
      cases triple' with
      | false =>
          have hbody : '{' :: body = body' := by simpa [opener] using h
          exact absurd (by rw [← hbody]; rfl) (hopener' rfl)
      | true => exact ⟨rfl, List.append_cancel_left h⟩

theorem IsInside.head?_append {triple : Bool} {inside : List Char} (h : IsInside triple inside)
    (rest : List Char) :
    triple = false → (inside ++ (closer triple ++ rest)).head? ≠ some '{' := by
  intro htriple
  have hhead := h.notTriple htriple
  subst htriple
  cases inside <;> simp_all [closer]

theorem IsInside.append_inj {triple triple' : Bool} {inside inside' rest rest' : List Char}
    (h : IsInside triple inside) (h' : IsInside triple' inside')
    (heq : opener triple ++ (inside ++ (closer triple ++ rest)) =
      opener triple' ++ (inside' ++ (closer triple' ++ rest'))) :
    triple = triple' ∧ inside = inside' ∧ rest = rest' := by
  obtain ⟨rfl, hbody⟩ := opener_append_inj heq (h.head?_append rest) (h'.head?_append rest')
  obtain rfl := eq_of_first_occurrence (closer_ne_nil triple) h.noCloser h'.noCloser hbody
  exact ⟨rfl, rfl, List.append_cancel_left (List.append_cancel_left hbody)⟩

theorem ParseError.missing_inj {block block' : Option Block} {line line' : Nat}
    (h : missing block line = missing block' line') : block = block' := by
  cases block <;> cases block' <;> simp_all [missing]

theorem ParseError.missing_ne_unclosedTag (block : Option Block) (line line' : Nat)
    (triple : Bool) : missing block line ≠ .unclosedTag triple line' := by
  cases block <;> nofun

theorem Ending.eq_of_source_eq {ending ending' : Ending} {line line' : Nat} (h : ending.IsValid)
    (h' : ending'.IsValid) (hfailure : ending.failure? line = ending'.failure? line')
    (hsource : ending.source = ending'.source) : ending = ending' := by
  cases ending with
  | complete => cases ending' <;> first | rfl | cases hfailure
  | unclosed triple rest =>
      cases ending' with
      | complete => cases hfailure
      | unclosed triple' rest' =>
          obtain ⟨rfl, rfl⟩ := opener_append_inj hsource h.notTriple h'.notTriple
          rfl
      | bare block inside rest =>
          exact absurd (Option.some.inj hfailure).symm (ParseError.missing_ne_unclosedTag _ _ _ _)
  | bare block inside rest =>
      cases ending' with
      | complete => cases hfailure
      | unclosed triple rest =>
          exact absurd (Option.some.inj hfailure) (ParseError.missing_ne_unclosedTag _ _ _ _)
      | bare block' inside' rest' =>
          obtain ⟨_, rfl, rfl⟩ := h.1.append_inj h'.1 hsource
          rw [ParseError.missing_inj (Option.some.inj hfailure)]

namespace Slice

/-- The tokens and the failure say what kind each piece is of, and the source then where it ends. -/
theorem eq_of_tokensAfter {ending ending' : Ending} {line line' : Nat}
    (hfailure : ending.failure? line = ending'.failure? line') (slices : List Slice) :
    ∀ (slices' : List Slice) (before : List Char), AllValid ending slices →
      AllValid ending' slices' → tokensAfter before slices = tokensAfter before slices' →
        slices.flatMap source ++ ending.source = slices'.flatMap source ++ ending'.source →
          slices = slices' ∧ ending = ending' := by
  induction slices with
  | nil =>
      rintro (_ | ⟨slice, rest⟩) before hvalid hvalid' htokens hsource
      · exact ⟨rfl, Ending.eq_of_source_eq hvalid hvalid' hfailure hsource⟩
      · cases htokens
  | cons slice rest ih =>
      rintro (_ | ⟨slice', rest'⟩) before hvalid hvalid' htokens hsource
      · cases htokens
      · obtain ⟨hslice, _, hrest⟩ := hvalid
        obtain ⟨hslice', _, hrest'⟩ := hvalid'
        obtain ⟨htoken, htokens⟩ := List.cons.inj htokens
        rw [List.flatMap_cons, List.flatMap_cons, List.append_assoc, List.append_assoc] at hsource
        have hsame : slice = slice' := by
          cases slice <;> cases slice' <;> try cases htoken
          · next content content' =>
            rw [String.ofList_injective (Token.text.inj htoken)]
          · next triple inside found triple' inside' =>
            simp only [source, List.append_assoc] at hsource
            obtain ⟨rfl, rfl, _⟩ := hslice.1.append_inj hslice'.1 hsource
            rfl
        subst hsame
        obtain ⟨rfl, rfl⟩ :=
          ih rest' _ hrest hrest' htokens (List.append_cancel_left hsource)
        exact ⟨rfl, rfl⟩

end Slice

namespace Segmentation

theorem scan_eq {segments : Segmentation} {source : String} (h : segments.IsValid)
    (hsource : segments.source = source.toList) : scan source = segments.scanAfter [] := by
  rw [scan, ← hsource]
  exact Slice.scanFrom_slices h []

theorem eq_of_source_eq {segments other : Segmentation} (h : segments.IsValid)
    (hother : other.IsValid) (hsource : other.source = segments.source) : other = segments := by
  have hscan : other.scanAfter [] = segments.scanAfter [] := by
    rw [← Slice.scanFrom_slices h [], ← Slice.scanFrom_slices hother []]
    exact congrArg _ hsource
  obtain ⟨htokens, hfailure⟩ := Scan.mk.inj hscan
  obtain ⟨slices, ending⟩ := segments
  obtain ⟨slices', ending'⟩ := other
  obtain ⟨rfl, rfl⟩ := Slice.eq_of_tokensAfter hfailure slices' slices [] hother h htokens hsource
  rfl

end Segmentation

/-- **A source falls into segments in one way only**, and the scanner reports these: a token for
each text and each tag, at the place where it starts, and at last what is wrong with the tag that
starts after them, unless they are the whole source. -/
theorem existsUnique_segmentation (source : String) :
    ∃ segments : Segmentation, segments.IsValid ∧ segments.source = source.toList ∧
      scan source = segments.scanAfter [] ∧
      ∀ other : Segmentation, other.IsValid → other.source = source.toList → other = segments := by
  obtain ⟨segments, hvalid, hsource⟩ := Segmentation.exists_isValid source.toList
  refine ⟨segments, hvalid, hsource, Segmentation.scan_eq hvalid hsource, fun other hother heq => ?_⟩
  exact Segmentation.eq_of_source_eq hvalid hother (heq.trans hsource.symm)

end PromptSheet.Template
