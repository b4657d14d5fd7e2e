import PromptSheet.Proofs.Segments

/-!
# Tags that can be read from a source, and their canonical form

What a tag holds is trimmed and never contains the braces that would have ended it, but braces as
such, quotes and equals signs may be anywhere in it. The canonical form of a tag sets blanks between
its content and its closing braces, so that a brace at the end of the content is not taken for one
of them, and gives each value of a parameter the quotes that do not occur in it.
-/

namespace PromptSheet.Template

/-- A value between quotes that it does not hold, or as it stands if it holds both kinds. -/
def writeValue (value : List Char) : List Char :=
  if '"' ∉ value then '"' :: (value ++ ['"'])
  else if '\'' ∉ value then '\'' :: (value ++ ['\''])
  else value

def writeParameter (parameter : String × String) : List Char :=
  ' ' :: (parameter.1.toList ++ '=' :: writeValue parameter.2.toList)

def writeDirective (name : String) (parameters : List (String × String)) : List Char :=
  name.toList ++ parameters.flatMap writeParameter

/-- The tag that closes a block. -/
def Block.closing (block : Block) : Tag :=
  .closing (String.ofList block.keyword)

namespace Tag

def isRaw : Tag → Bool
  | .rawSlot _ => true
  | _ => false

/-- What the canonical form of a tag has between its braces. -/
def canonicalInside : Tag → List Char
  | .opening block argument => '#' :: (block.keyword ++ ' ' :: argument.toList) ++ [' ']
  | .otherwise => ['e', 'l', 's', 'e', ' ']
  | .closing name => '/' :: name.toList
  | .comment content => '!' :: ' ' :: content.toList ++ [' ']
  | .rawSlot name => ' ' :: name.toList ++ [' ']
  | .inclusion directive => '>' :: ' ' :: directive.toList ++ [' ']
  | .slot name => ' ' :: name.toList ++ [' ']

def canonical (tag : Tag) : List Char :=
  opener tag.isRaw ++ (tag.canonicalInside ++ closer tag.isRaw)

end Tag

section Infix

variable {α : Type} {pattern first second : List α} {c : α}

/-- A pattern cannot lie across an element that it does not have. -/
theorem infix_append_cons_iff (hc : c ∉ pattern) :
    pattern <:+: first ++ c :: second ↔ pattern <:+: first ∨ pattern <:+: second := by
  constructor
  · rintro ⟨before, after, heq⟩
    rcases List.append_eq_append_iff.1 heq with ⟨more, rfl, hmore⟩ | ⟨more, hmore, heq⟩
    · exact .inl ⟨before, more, rfl⟩
    · cases more with
      | nil =>
          rw [List.append_nil] at hmore
          exact .inl ⟨before, [], by rw [List.append_nil, hmore]⟩
      | cons d more =>
          obtain ⟨rfl, rfl⟩ := List.cons.inj heq
          rcases List.append_eq_append_iff.1 hmore with ⟨front, _, rfl⟩ | ⟨front, _, hfront⟩
          · exact absurd (List.mem_append_right front List.mem_cons_self) hc
          · cases front with
            | nil =>
                obtain rfl : c :: more = pattern := hfront
                exact absurd List.mem_cons_self hc
            | cons e front =>
                obtain ⟨_, rfl⟩ := List.cons.inj hfront
                exact .inr ⟨front, after, rfl⟩
  · rintro (h | h)
    · exact h.trans (List.prefix_append first (c :: second)).isInfix
    · exact h.trans ((List.suffix_cons c second).trans (List.suffix_append first _)).isInfix

end Infix

/-- A text after whose characters a tag is still open. -/
def KeepsOpen (triple : Bool) (s : List Char) : Prop :=
  ¬closer triple <:+: s

section KeepsOpen

variable {triple : Bool} {first second s : List Char} {c : Char}

theorem KeepsOpen.of_infix (h : KeepsOpen triple s) (hpart : first <:+: s) :
    KeepsOpen triple first :=
  fun hcloser => h (hcloser.trans hpart)

theorem keepsOpen_append_cons (hc : c ≠ '}') :
    KeepsOpen triple (first ++ c :: second) ↔ KeepsOpen triple first ∧ KeepsOpen triple second := by
  have hnone : c ∉ closer triple := by
    cases triple <;> simp [closer, hc]
  rw [KeepsOpen, infix_append_cons_iff hnone, not_or]
  rfl

theorem keepsOpen_nil (triple : Bool) : KeepsOpen triple [] := by
  cases triple <;> simp [KeepsOpen, closer]

theorem keepsOpen_cons (hc : c ≠ '}') : KeepsOpen triple (c :: s) ↔ KeepsOpen triple s := by
  rw [← List.nil_append (c :: s), keepsOpen_append_cons hc]
  simp [keepsOpen_nil]

theorem keepsOpen_concat (hc : c ≠ '}') : KeepsOpen triple (s ++ [c]) ↔ KeepsOpen triple s := by
  rw [keepsOpen_append_cons hc]
  simp [keepsOpen_nil]

theorem KeepsOpen.of_noBrace (h : '}' ∉ s) : KeepsOpen triple s := by
  intro hcloser
  refine h (hcloser.subset ?_)
  cases triple <;> exact List.mem_cons_self

/-- Three closing braces have two in them. -/
theorem KeepsOpen.raw (h : KeepsOpen false s) : KeepsOpen true s :=
  fun hcloser => h (List.IsInfix.trans ⟨[], ['}'], rfl⟩ hcloser)

theorem IsInside.keepsOpen (h : IsInside triple s) : KeepsOpen triple s :=
  fun hcloser => h.noCloser (hcloser.trans (List.prefix_append s _).isInfix)

/-- The blank at the end keeps the content apart from the closing braces. -/
theorem isInside_concat_space (h : KeepsOpen triple s)
    (hhead : triple = false → s.head? ≠ some '{') : IsInside triple (s ++ [' ']) := by
  refine ⟨?_, fun htriple => ?_⟩
  · have hapart : KeepsOpen triple (s ++ ' ' :: (closer triple).dropLast) :=
      (keepsOpen_append_cons (by decide)).2 ⟨h, not_occurs_dropLast (closer_ne_nil triple)⟩
    simpa [KeepsOpen] using hapart
  · cases s with
    | nil => simp
    | cons c s => exact hhead htriple

end KeepsOpen

end PromptSheet.Template

namespace PromptSheet.Text

theorem lastWord_suffix (s : List Char) : lastWord s <:+ s := by
  rw [lastWord, ← List.reverse_prefix, List.reverse_reverse]
  exact List.takeWhile_prefix _

theorem isSolid_lastWord (s : List Char) : IsSolid (lastWord s) := by
  intro c hc
  have := List.mem_takeWhile_imp (List.mem_reverse.1 hc)
  simpa using this

theorem isSolid_cutAtBlank (s : List Char) : IsSolid (cutAtBlank s).1 := by
  intro c hc
  have := List.mem_takeWhile_imp hc
  simpa using this

/-- A word ends where a blank comes next, or nothing at all. -/
theorem cutAtBlank_word_append {word rest : List Char} (hword : IsSolid word)
    (hrest : ∀ c ∈ rest.head?, isBlank c = true) : cutAtBlank (word ++ rest) = (word, rest) := by
  have hword : ∀ c ∈ word, (!isBlank c) = true := by simpa [IsSolid] using hword
  rw [cutAtBlank, List.takeWhile_append_of_pos hword, List.dropWhile_append_of_pos hword]
  cases rest with
  | nil => simp
  | cons c rest => simp [hrest c rfl]

end PromptSheet.Text

namespace PromptSheet.Template

structure IsReadableKey (s : List Char) : Prop where
  nonempty : s ≠ []
  solid : Text.IsSolid s
  noEquals : '=' ∉ s
  keepsOpen : KeepsOpen false s

/-- A value was between quotes that it does not hold, or it is a word that starts with no quote. -/
structure IsReadableValue (s : List Char) : Prop where
  quotable : '"' ∉ s ∨ '\'' ∉ s ∨ Text.IsSolid s ∧ s.head? ∉ [some '"', some '\'']
  keepsOpen : KeepsOpen false s

def ParametersReadable (parameters : List (String × String)) : Prop :=
  ∀ parameter ∈ parameters,
    IsReadableKey parameter.1.toList ∧ IsReadableValue parameter.2.toList

structure IsReadableDirective (name : String) (parameters : List (String × String)) : Prop where
  nonempty : name.toList ≠ []
  solid : Text.IsSolid name.toList
  keepsOpen : KeepsOpen false name.toList
  parameters : ParametersReadable parameters

section Reading

variable {c quote : Char} {s body : List Char}

theorem cutAtFirst_eq_some {cut : List Char × List Char} (h : cutAtFirst c s = some cut) :
    c ∉ cut.1 ∧ s = cut.1 ++ c :: cut.2 := by
  induction s generalizing cut with
  | nil => cases h
  | cons d rest ih =>
      rw [cutAtFirst] at h
      by_cases hd : d = c
      · rw [if_pos hd, Option.some.injEq] at h
        subst h hd
        exact ⟨List.not_mem_nil, rfl⟩
      · rw [if_neg hd] at h
        obtain ⟨inner, hinner, rfl⟩ := Option.map_eq_some_iff.1 h
        obtain ⟨hnone, hrest⟩ := ih hinner
        refine ⟨?_, by rw [hrest]; rfl⟩
        simpa [Ne.symm hd] using hnone

theorem cutAtFirst_eq_none_iff : cutAtFirst c s = none ↔ c ∉ s := by
  constructor
  · intro h hmem
    obtain ⟨before, after, rfl, hbefore⟩ := List.eq_append_cons_of_mem hmem
    rw [cutAtFirst_append after hbefore] at h
    cases h
  · intro hnone
    cases h : cutAtFirst c s with
    | none => rfl
    | some cut =>
        rw [(cutAtFirst_eq_some h).2] at hnone
        exact absurd (List.mem_append_right _ List.mem_cons_self) hnone

theorem readQuoted_cases (quote : Char) (body : List Char) :
    quote ∉ (readQuoted quote body).1 ∧ (readQuoted quote body).1 <:+: body ∧
      (readQuoted quote body).2 <:+: body := by
  rw [readQuoted]
  cases h : cutAtFirst quote body with
  | none => exact ⟨cutAtFirst_eq_none_iff.1 h, List.infix_rfl, List.nil_infix⟩
  | some cut =>
      obtain ⟨hnone, hbody⟩ := cutAtFirst_eq_some h
      refine ⟨hnone, ⟨[], quote :: cut.2, ?_⟩, ⟨cut.1 ++ [quote], [], ?_⟩⟩
      · rw [hbody]
        rfl
      · rw [hbody]
        simp

theorem isReadableValue_readValue (h : KeepsOpen false s) :
    IsReadableValue (readValue s).1 ∧ KeepsOpen false (readValue s).2 := by
  unfold readValue
  split
  · next body =>
    obtain ⟨hnone, hvalue, hrest⟩ := readQuoted_cases '"' body
    have hbody : KeepsOpen false body := (keepsOpen_cons (by decide)).1 h
    exact ⟨⟨.inl hnone, hbody.of_infix hvalue⟩, hbody.of_infix hrest⟩
  · next body =>
    obtain ⟨hnone, hvalue, hrest⟩ := readQuoted_cases '\'' body
    have hbody : KeepsOpen false body := (keepsOpen_cons (by decide)).1 h
    exact ⟨⟨.inr (.inl hnone), hbody.of_infix hvalue⟩, hbody.of_infix hrest⟩
  · next hdouble hsingle =>
    have hvalue : (Text.cutAtBlank s).1 <+: s := List.takeWhile_prefix _
    have hhead : (Text.cutAtBlank s).1.head? ∉ [some '"', some '\''] := by
      intro hmem
      have hquote : s.head? ∈ [some '"', some '\''] := by
        obtain ⟨rest, hrest⟩ := hvalue
        rw [← hrest, List.head?_append]
        revert hmem
        cases (Text.cutAtBlank s).1 <;> simp
      cases s with
      | nil => simp at hquote
      | cons c body =>
          simp only [List.head?_cons, List.mem_cons, Option.some.injEq, List.not_mem_nil,
            or_false] at hquote
          rcases hquote with rfl | rfl
          · exact hdouble body rfl
          · exact hsingle body rfl
    exact ⟨⟨.inr (.inr ⟨Text.isSolid_cutAtBlank s, hhead⟩), h.of_infix hvalue.isInfix⟩,
      h.of_infix (List.dropWhile_suffix _).isInfix⟩

theorem parametersReadable_readParameters (s : List Char) (h : KeepsOpen false s) :
    ParametersReadable (readParameters s) := by
  -- What stands before the equals sign and after it are both parts of the text.
  have hparts : ∀ s before after, cutAtFirst '=' (Text.trimStart s) = some (before, after) →
      KeepsOpen false s → '=' ∉ before ∧ KeepsOpen false before ∧ KeepsOpen false after := by
    intro s before after hcut h
    obtain ⟨hequals, hstart⟩ := cutAtFirst_eq_some hcut
    have hopen : KeepsOpen false (Text.trimStart s) := h.of_infix (List.dropWhile_suffix _).isInfix
    rw [hstart, keepsOpen_append_cons (by decide)] at hopen
    exact ⟨hequals, hopen⟩
  induction s using readParameters.induct with
  | case1 s hcut =>
      rw [readParameters_of_cut_eq_none hcut]
      exact List.forall_mem_nil _
  | case2 s before after hcut key hkey ih =>
      obtain ⟨_, _, hafter⟩ := hparts s before after hcut h
      rw [readParameters_of_cut_eq_some hcut, if_pos hkey]
      exact ih (isReadableValue_readValue hafter).2
  | case3 s before after hcut key hkey ih =>
      obtain ⟨hequals, hbefore, hafter⟩ := hparts s before after hcut h
      obtain ⟨hvalue, hrest⟩ := isReadableValue_readValue hafter
      have hpart : key <:+: before :=
        (Text.lastWord_suffix _).isInfix.trans (Text.isInfix_trim before)
      rw [readParameters_of_cut_eq_some hcut, if_neg hkey]
      refine List.forall_mem_cons.2 ⟨?_, ih hrest⟩
      simp only [String.toList_ofList]
      refine ⟨⟨by simpa using hkey, Text.isSolid_lastWord _, fun hmem => hequals ?_,
        hbefore.of_infix hpart⟩, hvalue⟩
      exact hpart.subset hmem

theorem isReadableDirective_readDirective (hne : s ≠ []) (htrimmed : Text.IsTrimmed s)
    (h : KeepsOpen false s) : IsReadableDirective (readDirective s).1 (readDirective s).2 := by
  rw [readDirective, htrimmed.trim_eq]
  refine ⟨?_, ?_, ?_, parametersReadable_readParameters _ (h.of_infix ?_)⟩
  · obtain ⟨c, rest, rfl⟩ := List.exists_cons_of_ne_nil hne
    have hc : Text.isBlank c = false := htrimmed.1 c rfl
    simp [Text.cutAtBlank, hc]
  · rw [String.toList_ofList]
    exact Text.isSolid_cutAtBlank s
  · rw [String.toList_ofList]
    exact h.of_infix (List.takeWhile_prefix _).isInfix
  · exact (List.dropWhile_suffix _).isInfix

end Reading

/-- What a tag holds is such that a source can have it; the word of a closing tag may be any. -/
def Tag.IsReadable : Tag → Prop
  | .opening _ argument =>
    argument.toList ≠ [] ∧ Text.IsTrimmed argument.toList ∧ KeepsOpen false argument.toList
  | .otherwise => True
  | .closing _ => True
  | .comment content => Text.IsTrimmed content.toList ∧ KeepsOpen false content.toList
  | .rawSlot name => Text.IsTrimmed name.toList ∧ KeepsOpen true name.toList
  | .inclusion directive =>
    directive.toList ≠ [] ∧ Text.IsTrimmed directive.toList ∧ KeepsOpen false directive.toList
  | .slot name =>
    Tag.ofTrimmed 1 name.toList = .ok (.slot name) ∧ Text.IsTrimmed name.toList ∧
      KeepsOpen false name.toList

namespace Tag

variable {line : Nat} {content block : List Char} {found : Tag}

theorem isReadable_of_ofBlock (hcontent : Text.IsTrimmed ('#' :: block))
    (hopen : KeepsOpen false ('#' :: block))
    (h : ofBlock line ('#' :: block) block = .ok found) : found.IsReadable := by
  have hfound := h
  simp only [ofBlock] at h
  split at h
  · cases h
    have hline : ofBlock 1 ('#' :: block) block = _ := ofBlock_of_ok hfound 1
    simp only [IsReadable, String.toList_ofList]
    exact ⟨hline, hcontent, hopen⟩
  · by_cases hempty : (keywordAndRest block).2.isEmpty = true
    · rw [if_pos hempty] at h
      cases h
    · rw [if_neg hempty] at h
      cases h
      have hblock : KeepsOpen false block := (keepsOpen_cons (by decide)).1 hopen
      have hpart : (keywordAndRest block).2 <:+: block :=
        (Text.isInfix_trim _).trans
          ((List.dropWhile_suffix _).isInfix.trans (Text.isInfix_trim block))
      simp only [IsReadable, String.toList_ofList]
      exact ⟨by simpa using hempty, Text.isTrimmed_trim _, hblock.of_infix hpart⟩

theorem isReadable_of_ofTrimmed (hcontent : Text.IsTrimmed content)
    (hopen : KeepsOpen false content) (h : ofTrimmed line content = .ok found) :
    found.IsReadable := by
  have hslot : found = .slot (String.ofList content) → found.IsReadable := by
    rintro rfl
    simp only [IsReadable, String.toList_ofList]
    exact ⟨ofTrimmed_of_ok h 1, hcontent, hopen⟩
  have hfound := h
  unfold ofTrimmed at h
  split at h
  · exact isReadable_of_ofBlock hcontent hopen h
  · cases h
    have hrest := (keepsOpen_cons (by decide)).1 hopen
    simp only [IsReadable, String.toList_ofList]
    exact ⟨Text.isTrimmed_trim _, hrest.of_infix (Text.isInfix_trim _)⟩
  · cases h
    trivial
  · next rest =>
    by_cases hempty : (Text.trim rest).isEmpty = true
    · simp [hempty] at h
    · simp only [hempty] at h
      cases h
      have hrest : KeepsOpen false rest := (keepsOpen_cons (by decide)).1 hopen
      simp only [IsReadable, String.toList_ofList]
      exact ⟨by simpa using hempty, Text.isTrimmed_trim _, hrest.of_infix (Text.isInfix_trim _)⟩
  · next rest =>
    split at h
    · next inner hinner =>
      cases h
      have hpart : Text.trim inner.reverse <:+: '{' :: rest := by
        have hrest : rest = inner.reverse ++ ['}'] := by
          rw [← List.reverse_reverse rest, hinner, List.reverse_cons]
        rw [hrest]
        exact (Text.isInfix_trim _).trans ⟨['{'], ['}'], rfl⟩
      simp only [IsReadable, String.toList_ofList]
      exact ⟨Text.isTrimmed_trim _, (hopen.of_infix hpart).raw⟩
    · exact hslot (Except.ok.inj h).symm
  · split at h
    · cases h
      trivial
    · exact hslot (Except.ok.inj h).symm

/-- A tag that is found in a source is readable. -/
theorem isReadable_of_ofInside {triple : Bool} {inside : List Char}
    (hinside : IsInside triple inside) (h : ofInside triple line inside = .ok found) :
    found.IsReadable := by
  have hopen : KeepsOpen triple (Text.trim inside) :=
    hinside.keepsOpen.of_infix (Text.isInfix_trim inside)
  cases triple with
  | true =>
      cases h
      simp only [IsReadable, String.toList_ofList]
      exact ⟨Text.isTrimmed_trim inside, hopen⟩
  | false => exact isReadable_of_ofTrimmed (Text.isTrimmed_trim inside) hopen h

theorem ofContent_concat_space (line : Nat) (content : List Char) :
    ofContent line (content ++ [' ']) = ofContent line content := by
  rw [ofContent, Text.trim_concat_blank Text.isBlank_space, ofContent]

theorem ofInside_canonicalInside (h : found.IsReadable)
    (hclosing : ∀ name, found = .closing name → ∃ block : Block, found = block.closing)
    (line : Nat) : ofInside found.isRaw line found.canonicalInside = .ok found := by
  cases found with
  | opening block argument =>
      obtain ⟨hne, htrimmed, _⟩ := h
      have hread := ofContent_opening line block htrimmed hne
      rw [String.ofList_toList] at hread
      exact (ofContent_concat_space line _).trans hread
  | otherwise => rfl
  | closing name =>
      obtain ⟨block, hblock⟩ := hclosing name rfl
      cases hblock
      simp only [canonicalInside, String.toList_ofList]
      exact ofContent_closing line block
  | comment content =>
      have hread := ofContent_comment line h.1
      rw [String.ofList_toList] at hread
      exact (ofContent_concat_space line _).trans hread
  | rawSlot name =>
      have htrim : Text.trim (' ' :: name.toList ++ [' ']) = name.toList := by
        rw [Text.trim_concat_blank Text.isBlank_space, Text.trim_space_cons, h.1.trim_eq]
      show Except.ok (Tag.rawSlot (String.ofList (Text.trim (' ' :: name.toList ++ [' '])))) = _
      rw [htrim, String.ofList_toList]
  | inclusion directive =>
      obtain ⟨hne, htrimmed, _⟩ := h
      have hread := ofContent_inclusion line htrimmed hne
      rw [String.ofList_toList] at hread
      exact (ofContent_concat_space line _).trans hread
  | slot name =>
      obtain ⟨hread, htrimmed, _⟩ := h
      refine (ofContent_concat_space line _).trans ?_
      rw [ofContent, Text.trim_space_cons, htrimmed.trim_eq]
      exact ofTrimmed_of_ok hread line

theorem isInside_canonicalInside (h : found.IsReadable)
    (hclosing : ∀ name, found = .closing name → ∃ block : Block, found = block.closing) :
    IsInside found.isRaw found.canonicalInside := by
  cases found with
  | opening block argument =>
      refine isInside_concat_space ?_ (fun _ => by simp)
      have hkeyword : KeepsOpen false block.keyword := .of_noBrace (by cases block <;> decide)
      exact (keepsOpen_cons (by decide)).2 ((keepsOpen_append_cons (by decide)).2 ⟨hkeyword, h.2.2⟩)
  | otherwise => exact isInside_of_isBraceless false (by decide)
  | closing name =>
      obtain ⟨block, hblock⟩ := hclosing name rfl
      cases hblock
      simp only [canonicalInside, String.toList_ofList]
      exact isInside_of_isBraceless false (by cases block <;> decide)
  | comment content =>
      refine isInside_concat_space ?_ (fun _ => by simp)
      exact (keepsOpen_cons (by decide)).2 ((keepsOpen_cons (by decide)).2 h.2)
  | rawSlot name =>
      exact isInside_concat_space ((keepsOpen_cons (by decide)).2 h.2) (fun _ => by simp)
  | inclusion directive =>
      refine isInside_concat_space ?_ (fun _ => by simp)
      exact (keepsOpen_cons (by decide)).2 ((keepsOpen_cons (by decide)).2 h.2.2)
  | slot name =>
      exact isInside_concat_space ((keepsOpen_cons (by decide)).2 h.2.2) (fun _ => by simp)

/-- A tag in canonical form, as a piece of a source. -/
def slice (tag : Tag) : Slice :=
  .tag tag.isRaw tag.canonicalInside tag

theorem source_slice (tag : Tag) : tag.slice.source = tag.canonical := rfl

theorem isValid_slice (h : found.IsReadable)
    (hclosing : ∀ name, found = .closing name → ∃ block : Block, found = block.closing) :
    found.slice.IsValid :=
  ⟨isInside_canonicalInside h hclosing, ofInside_canonicalInside h hclosing⟩

theorem isValid_slice_closing (block : Block) : block.closing.slice.IsValid :=
  isValid_slice (show block.closing.IsReadable from trivial) fun _ _ => ⟨block, rfl⟩

end Tag

/-! ### Reading a directive in canonical form

The name of a directive ends at the first blank and a value at the quote that opened it, so each part
is read back before the next one begins.
-/

section Directives

variable {s rest : List Char} {name : String} {parameters : List (String × String)}

theorem readValue_word (hsolid : Text.IsSolid s) (hhead : s.head? ∉ [some '"', some '\''])
    (hrest : ∀ c ∈ rest.head?, Text.isBlank c = true) : readValue (s ++ rest) = (s, rest) := by
  have hfirst : ∀ quote, Text.isBlank quote = false → some quote ∈ [some '"', some '\''] →
      ∀ body, s ++ rest ≠ quote :: body := by
    intro quote hblank hquote body heq
    cases s with
    | nil =>
        rw [List.nil_append] at heq
        rw [hrest quote (by rw [heq]; rfl)] at hblank
        cases hblank
    | cons c s =>
        obtain ⟨rfl, _⟩ := List.cons.inj heq
        exact hhead hquote
  rw [readValue, Text.cutAtBlank_word_append hsolid hrest]
  · exact hfirst '"' (by decide) (by simp)
  · exact hfirst '\'' (by decide) (by simp)

theorem readValue_writeValue (h : IsReadableValue s)
    (hrest : ∀ c ∈ rest.head?, Text.isBlank c = true) :
    readValue (writeValue s ++ rest) = (s, rest) := by
  rw [writeValue]
  by_cases hdouble : '"' ∉ s
  · rw [if_pos hdouble, List.cons_append, List.append_assoc]
    exact readQuoted_append rest hdouble
  · rw [if_neg hdouble]
    by_cases hsingle : '\'' ∉ s
    · rw [if_pos hsingle, List.cons_append, List.append_assoc]
      exact readQuoted_append rest hsingle
    · rw [if_neg hsingle]
      obtain ⟨hsolid, hhead⟩ := (h.quotable.resolve_left hdouble).resolve_left hsingle
      exact readValue_word hsolid hhead hrest

theorem head?_flatMap_writeParameter (parameters : List (String × String)) :
    ∀ c ∈ (parameters.flatMap writeParameter).head?, Text.isBlank c = true := by
  cases parameters with
  | nil => simp
  | cons parameter parameters =>
      rintro c ⟨⟩
      exact Text.isBlank_space

theorem readParameters_flatMap_writeParameter (h : ParametersReadable parameters) :
    readParameters (parameters.flatMap writeParameter) = parameters := by
  induction parameters with
  | nil => exact readParameters_of_cut_eq_none rfl
  | cons parameter parameters ih =>
      obtain ⟨⟨hkey, hvalue⟩, hrest⟩ := List.forall_mem_cons.1 h
      have hread := readValue_writeValue hvalue (head?_flatMap_writeParameter parameters)
      have hsource : (parameter :: parameters).flatMap writeParameter =
          [' '] ++ (parameter.1.toList ++ '=' ::
            (writeValue parameter.2.toList ++ parameters.flatMap writeParameter)) := by
        simp [writeParameter]
      rw [hsource, readParameters_key (by decide) (by simp [Text.isBlank_space]) hkey.nonempty
        hkey.solid hkey.noEquals hread, ih hrest, String.ofList_toList, String.ofList_toList]

theorem getLast?_writeValue (h : IsReadableValue s) :
    ∃ c, (writeValue s).getLast? = some c ∧ Text.isBlank c = false := by
  rw [writeValue]
  by_cases hdouble : '"' ∉ s
  · rw [if_pos hdouble, ← List.cons_append]
    exact ⟨'"', List.getLast?_concat, by decide⟩
  · rw [if_neg hdouble]
    by_cases hsingle : '\'' ∉ s
    · rw [if_pos hsingle, ← List.cons_append]
      exact ⟨'\'', List.getLast?_concat, by decide⟩
    · rw [if_neg hsingle]
      obtain ⟨hsolid, _⟩ := (h.quotable.resolve_left hdouble).resolve_left hsingle
      have hne : s ≠ [] := by
        rintro rfl
        simp at hdouble
      exact ⟨s.getLast hne, List.getLast?_eq_some_getLast hne, hsolid _ (List.getLast_mem hne)⟩

theorem getLast?_writeDirective (h : IsReadableDirective name parameters) :
    ∃ c, (writeDirective name parameters).getLast? = some c ∧ Text.isBlank c = false := by
  rw [writeDirective]
  rcases List.eq_nil_or_concat parameters with rfl | ⟨front, last, rfl⟩
  · rw [List.flatMap_nil, List.append_nil]
    exact ⟨_, List.getLast?_eq_some_getLast h.nonempty, h.solid _ (List.getLast_mem h.nonempty)⟩
  · have hvalue := (h.parameters last (by simp)).2
    obtain ⟨c, hc, hblank⟩ := getLast?_writeValue hvalue
    refine ⟨c, ?_, hblank⟩
    rw [List.concat_eq_append, List.flatMap_append, List.flatMap_singleton, writeParameter]
    simp [List.getLast?_append, List.getLast?_cons, hc]

theorem isTrimmed_writeDirective (h : IsReadableDirective name parameters) :
    Text.IsTrimmed (writeDirective name parameters) := by
  refine ⟨fun c hc => ?_, fun c hc => ?_⟩
  · rw [writeDirective, List.head?_append, Option.or_of_isSome (by simpa using h.nonempty)] at hc
    exact h.solid c (List.mem_of_mem_head? hc)
  · obtain ⟨last, hlast, hblank⟩ := getLast?_writeDirective h
    rw [hlast] at hc
    cases hc
    exact hblank

theorem readDirective_writeDirective (h : IsReadableDirective name parameters) :
    readDirective (writeDirective name parameters) = (name, parameters) := by
  rw [readDirective, (isTrimmed_writeDirective h).trim_eq, writeDirective,
    Text.cutAtBlank_word_append h.solid (head?_flatMap_writeParameter parameters)]
  simp only [String.ofList_toList, readParameters_flatMap_writeParameter h.parameters]

theorem keepsOpen_writeValue (h : KeepsOpen false s) : KeepsOpen false (writeValue s) := by
  rw [writeValue]
  split
  · exact (keepsOpen_cons (by decide)).2 ((keepsOpen_concat (by decide)).2 h)
  · split
    · exact (keepsOpen_cons (by decide)).2 ((keepsOpen_concat (by decide)).2 h)
    · exact h

theorem keepsOpen_append_parameters (hs : KeepsOpen false s) (h : ParametersReadable parameters) :
    KeepsOpen false (s ++ parameters.flatMap writeParameter) := by
  induction parameters generalizing s with
  | nil => simpa using hs
  | cons parameter parameters ih =>
      obtain ⟨⟨hkey, hvalue⟩, hrest⟩ := List.forall_mem_cons.1 h
      have hsource : s ++ (parameter :: parameters).flatMap writeParameter =
          s ++ ' ' :: (parameter.1.toList ++ '=' ::
            (writeValue parameter.2.toList ++ parameters.flatMap writeParameter)) := by
        simp [writeParameter]
      rw [hsource, keepsOpen_append_cons (by decide), keepsOpen_append_cons (by decide)]
      exact ⟨hs, hkey.keepsOpen, ih (keepsOpen_writeValue hvalue.keepsOpen) hrest⟩

theorem isReadable_inclusion (h : IsReadableDirective name parameters) :
    (Tag.inclusion (String.ofList (writeDirective name parameters))).IsReadable := by
  have hne : writeDirective name parameters ≠ [] := by
    simp [writeDirective, h.nonempty]
  simp only [Tag.IsReadable, String.toList_ofList]
  exact ⟨hne, isTrimmed_writeDirective h, keepsOpen_append_parameters h.keepsOpen h.parameters⟩

end Directives

end PromptSheet.Template
