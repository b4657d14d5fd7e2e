import PromptSheet.Proofs.Scanning
import PromptSheet.Proofs.Trimming
import PromptSheet.Template.Inclusion

/-!
# Reading the content of a written tag

What may stand inside a tag so that nothing of it is lost: braces would end the tag, blanks at the
ends are trimmed away, and a name must not look like another kind of tag. Contents that satisfy
these conditions are read back as they were written, the parameters of an inclusion among them.
-/

namespace PromptSheet.Template

/-- A content which a tag keeps as it stands. -/
structure IsContent (s : List Char) : Prop where
  noBrace : IsBraceless s
  trimmed : Text.IsTrimmed s

structure IsName (s : List Char) : Prop extends IsContent s where
  nonempty : s ≠ []

/-- A name that a tag with two braces does not take for anything else. -/
structure IsSlotName (s : List Char) : Prop extends IsName s where
  notOtherwise : s ≠ ['e', 'l', 's', 'e']
  noMark : s.head? ∉ [some '#', some '!', some '/', some '>']

structure IsWord (s : List Char) : Prop where
  nonempty : s ≠ []
  noBrace : IsBraceless s
  solid : Text.IsSolid s

structure IsKey (s : List Char) : Prop extends IsWord s where
  noEquals : '=' ∉ s

structure IsParameterValue (s : List Char) : Prop where
  noQuote : '"' ∉ s
  noBrace : IsBraceless s

instance (s : List Char) : Decidable (IsContent s) :=
  decidable_of_iff (IsBraceless s ∧ Text.IsTrimmed s)
    ⟨fun h => ⟨h.1, h.2⟩, fun h => ⟨h.noBrace, h.trimmed⟩⟩

instance (s : List Char) : Decidable (IsName s) :=
  decidable_of_iff (IsContent s ∧ s ≠ []) ⟨fun h => ⟨h.1, h.2⟩, fun h => ⟨h.toIsContent, h.nonempty⟩⟩

instance (s : List Char) : Decidable (IsSlotName s) :=
  decidable_of_iff
    (IsName s ∧ s ≠ ['e', 'l', 's', 'e'] ∧ s.head? ∉ [some '#', some '!', some '/', some '>'])
    ⟨fun h => ⟨h.1, h.2.1, h.2.2⟩, fun h => ⟨h.toIsName, h.notOtherwise, h.noMark⟩⟩

instance (s : List Char) : Decidable (IsWord s) :=
  decidable_of_iff (s ≠ [] ∧ IsBraceless s ∧ Text.IsSolid s)
    ⟨fun h => ⟨h.1, h.2.1, h.2.2⟩, fun h => ⟨h.nonempty, h.noBrace, h.solid⟩⟩

instance (s : List Char) : Decidable (IsKey s) :=
  decidable_of_iff (IsWord s ∧ '=' ∉ s) ⟨fun h => ⟨h.1, h.2⟩, fun h => ⟨h.toIsWord, h.noEquals⟩⟩

instance (s : List Char) : Decidable (IsParameterValue s) :=
  decidable_of_iff ('"' ∉ s ∧ IsBraceless s)
    ⟨fun h => ⟨h.1, h.2⟩, fun h => ⟨h.noQuote, h.noBrace⟩⟩

def ParametersPlain (parameters : List (String × String)) : Prop :=
  ∀ parameter ∈ parameters, IsKey parameter.1.toList ∧ IsParameterValue parameter.2.toList

instance (parameters : List (String × String)) : Decidable (ParametersPlain parameters) :=
  inferInstanceAs (Decidable (∀ parameter ∈ parameters, _ ∧ _))

namespace Tag

variable {s : List Char} (line : Nat)

/-- A mark before a content hides at most the space between the two. -/
theorem exists_trim_mark (mark : Char) (hmark : Text.isBlank mark = false)
    (h : Text.IsTrimmed s) : ∃ rest, Text.trim (mark :: ' ' :: s) = mark :: rest ∧
      Text.trim rest = s := by
  have hstart : Text.trimStart (mark :: ' ' :: s) = mark :: ' ' :: s :=
    Text.dropWhile_isBlank_of_head (by simpa using hmark)
  cases s with
  | nil =>
      refine ⟨[], ?_, rfl⟩
      rw [Text.trim, hstart]
      simp [Text.trimEnd, Text.isBlank_space, hmark]
  | cons c rest =>
      refine ⟨' ' :: c :: rest, ?_, ?_⟩
      · rw [Text.trim, hstart]
        exact Text.trimEnd_of_last (by simpa using h.2)
      · rw [Text.trim_space_cons, h.trim_eq]

theorem ofContent_comment (h : Text.IsTrimmed s) :
    ofContent line ('!' :: ' ' :: s) = .ok (.comment (String.ofList s)) := by
  obtain ⟨rest, htrim, hrest⟩ := exists_trim_mark '!' (by decide) h
  rw [ofContent, htrim]
  simp only [ofTrimmed, hrest]

theorem ofContent_inclusion (h : Text.IsTrimmed s) (hne : s ≠ []) :
    ofContent line ('>' :: ' ' :: s) = .ok (.inclusion (String.ofList s)) := by
  obtain ⟨rest, htrim, hrest⟩ := exists_trim_mark '>' (by decide) h
  rw [ofContent, htrim]
  simp [ofTrimmed, hrest, hne]

theorem ofContent_slot (h : IsSlotName s) :
    ofContent line s = .ok (.slot (String.ofList s)) := by
  rw [ofContent, h.trimmed.trim_eq]
  obtain ⟨c, rest, rfl⟩ := List.exists_cons_of_ne_nil h.nonempty
  have hmark := h.noMark
  have hbrace := h.noBrace c List.mem_cons_self
  simp only [List.head?_cons, Option.some.injEq, List.mem_cons, List.not_mem_nil, or_false, not_or]
    at hmark
  obtain ⟨hhash, hbang, hslash, hgreater⟩ := hmark
  simp only [ofTrimmed]
  split
  · next heq => exact absurd (List.cons.inj heq).1 hhash
  · next heq => exact absurd (List.cons.inj heq).1 hbang
  · next heq => exact absurd (List.cons.inj heq).1 hslash
  · next heq => exact absurd (List.cons.inj heq).1 hgreater
  · next heq => exact absurd (.inl (List.cons.inj heq).1) hbrace
  · rw [if_neg h.notOtherwise]

theorem ofContent_otherwise : ofContent line ['e', 'l', 's', 'e'] = .ok .otherwise := rfl

theorem isSolid_keyword (block : Block) : Text.IsSolid block.keyword := by
  cases block <;> decide

theorem isBraceless_keyword (block : Block) : IsBraceless block.keyword := by
  cases block <;> decide

theorem ofKeyword?_keyword (block : Block) : Block.ofKeyword? block.keyword = some block := by
  cases block <;> rfl

theorem ofContent_opening (block : Block) (h : Text.IsTrimmed s) (hne : s ≠ []) :
    ofContent line ('#' :: (block.keyword ++ ' ' :: s)) =
      .ok (.opening block (String.ofList s)) := by
  have hcontent : Text.IsTrimmed ('#' :: (block.keyword ++ ' ' :: s)) := by
    rw [show '#' :: (block.keyword ++ ' ' :: s) = ('#' :: (block.keyword ++ [' '])) ++ s by simp]
    exact Text.isTrimmed_append (by simp [Text.isBlank, Text.blankCodes]) h.2 (by simp) hne
  have hblock : Text.IsTrimmed (block.keyword ++ ' ' :: s) := by
    rw [show block.keyword ++ ' ' :: s = (block.keyword ++ [' ']) ++ s by simp]
    refine Text.isTrimmed_append ?_ h.2 (by simp) hne
    cases block <;> rintro c ⟨⟩ <;> decide
  rw [ofContent, hcontent.trim_eq]
  simp only [ofTrimmed, ofBlock, keywordAndRest, hblock.trim_eq,
    Text.cutAtBlank_append_space (isSolid_keyword block), ofKeyword?_keyword,
    Text.trim_space_cons, h.trim_eq, List.isEmpty_iff, hne, if_false]

theorem ofContent_closing (block : Block) :
    ofContent line ('/' :: block.keyword) = .ok (.closing (String.ofList block.keyword)) := by
  cases block <;> rfl

end Tag

section Parameters

variable {key value name : String} {parameters : List (String × String)}

theorem cutAtFirst_append {c : Char} {before : List Char} (after : List Char) (h : c ∉ before) :
    cutAtFirst c (before ++ c :: after) = some (before, after) := by
  induction before with
  | nil => rw [List.nil_append, cutAtFirst, if_pos rfl]
  | cons d before ih =>
      have hd : d ≠ c := fun heq => h (heq ▸ List.mem_cons_self)
      have hbefore : c ∉ before := fun hmem => h (List.mem_cons_of_mem _ hmem)
      rw [List.cons_append, cutAtFirst, if_neg hd, ih hbefore]
      rfl

theorem readParameters_of_cut_eq_none {s : List Char}
    (h : cutAtFirst '=' (Text.trimStart s) = none) : readParameters s = [] := by
  rw [readParameters]
  split
  · rfl
  · next hsome => cases h.symm.trans hsome

theorem readParameters_of_cut_eq_some {s before after : List Char}
    (h : cutAtFirst '=' (Text.trimStart s) = some (before, after)) :
    readParameters s =
      if (Text.lastWord (Text.trim before)).isEmpty then readParameters (readValue after).2
      else (String.ofList (Text.lastWord (Text.trim before)), String.ofList (readValue after).1) ::
        readParameters (readValue after).2 := by
  rw [readParameters]
  split
  · next hnone => cases h.symm.trans hnone
  · next hsome =>
    cases h.symm.trans hsome
    rfl

/-- A key and what its value is read to be. What comes before the key is passed over if it has no
equals sign and a blank at its end. -/
theorem readParameters_key {front word after rest found : List Char} (hfront : '=' ∉ front)
    (hlast : ∀ c ∈ front.getLast?, Text.isBlank c = true) (hne : word ≠ [])
    (hsolid : Text.IsSolid word) (hequals : '=' ∉ word) (hread : readValue after = (found, rest)) :
    readParameters (front ++ (word ++ '=' :: after)) =
      (String.ofList word, String.ofList found) :: readParameters rest := by
  have hhead : ∀ c ∈ (word ++ '=' :: after).head?, Text.isBlank c = false := by
    rw [List.head?_append, Option.or_of_isSome (by simpa using hne)]
    exact hsolid.isTrimmed.1
  have hcut : cutAtFirst '=' (Text.trimStart (front ++ (word ++ '=' :: after))) =
      some (Text.trimStart front ++ word, after) := by
    rw [Text.trimStart_append hhead, ← List.append_assoc, cutAtFirst_append after]
    rw [List.mem_append, not_or]
    exact ⟨fun hmem => hfront ((List.dropWhile_suffix _).subset hmem), hequals⟩
  have htrimmed : Text.IsTrimmed (Text.trimStart front ++ word) := by
    rw [← Text.trimStart_append hsolid.isTrimmed.1]
    refine ⟨Text.head?_trimStart _, fun c hc => ?_⟩
    have hword := Text.getLast?_trimStart hc
    rw [List.getLast?_append, Option.or_of_isSome (List.getLast?_isSome.2 hne)] at hword
    exact hsolid.isTrimmed.2 c hword
  have hword : Text.lastWord (Text.trim (Text.trimStart front ++ word)) = word := by
    rw [htrimmed.trim_eq]
    exact Text.lastWord_append hsolid fun c hc => hlast c (Text.getLast?_trimStart hc)
  rw [readParameters_of_cut_eq_some hcut, hword, hread, if_neg (by simpa using hne)]

theorem readQuoted_append {quote : Char} {content : List Char} (rest : List Char)
    (h : quote ∉ content) : readQuoted quote (content ++ quote :: rest) = (content, rest) := by
  rw [readQuoted, cutAtFirst_append rest h]
  rfl

theorem readParameters_printParameter (rest : List Char) (hkey : IsKey key.toList)
    (hvalue : IsParameterValue value.toList) :
    readParameters (printParameter (key, value) ++ rest) = (key, value) :: readParameters rest := by
  have hsource : printParameter (key, value) ++ rest =
      [' '] ++ (key.toList ++ '=' :: '"' :: (value.toList ++ '"' :: rest)) := by
    simp [printParameter]
  have hread : readValue ('"' :: (value.toList ++ '"' :: rest)) = (value.toList, rest) :=
    readQuoted_append rest hvalue.noQuote
  rw [hsource, readParameters_key (by decide) (by simp [Text.isBlank_space]) hkey.nonempty
    hkey.solid hkey.noEquals hread, String.ofList_toList, String.ofList_toList]

theorem readParameters_flatMap (h : ParametersPlain parameters) :
    readParameters (parameters.flatMap printParameter) = parameters := by
  induction parameters with
  | nil => exact readParameters_of_cut_eq_none rfl
  | cons parameter parameters ih =>
      obtain ⟨⟨hkey, hvalue⟩, hrest⟩ := List.forall_mem_cons.1 h
      rw [List.flatMap_cons, readParameters_printParameter _ hkey hvalue, ih hrest]

theorem isBraceless_parameters (h : ParametersPlain parameters) :
    IsBraceless (parameters.flatMap printParameter) := by
  intro c hc
  obtain ⟨parameter, hparameter, hmem⟩ := List.mem_flatMap.1 hc
  obtain ⟨hkey, hvalue⟩ := h parameter hparameter
  have hparts : IsBraceless (printParameter parameter) := by
    rw [printParameter, isBraceless_append, isBraceless_append, isBraceless_append,
      isBraceless_cons]
    exact ⟨⟨⟨⟨by decide, hkey.noBrace⟩, by decide⟩, hvalue.noBrace⟩, by decide⟩
  exact hparts c hmem

theorem flatMap_printParameter_eq (parameters : List (String × String)) :
    parameters = [] ∨
      ∃ body, parameters.flatMap printParameter = ' ' :: (body ++ ['"']) := by
  induction parameters with
  | nil => exact .inl rfl
  | cons parameter parameters ih =>
      right
      obtain rfl | ⟨body, hbody⟩ := ih
      · exact ⟨parameter.1.toList ++ ['=', '"'] ++ parameter.2.toList, by simp [printParameter]⟩
      · refine ⟨parameter.1.toList ++ ['=', '"'] ++ parameter.2.toList ++ '"' :: ' ' :: body, ?_⟩
        rw [List.flatMap_cons, hbody]
        simp [printParameter]

theorem isTrimmed_directive (hname : IsWord name.toList) (parameters : List (String × String)) :
    Text.IsTrimmed (name.toList ++ parameters.flatMap printParameter) := by
  have htrimmed : Text.IsTrimmed name.toList := hname.solid.isTrimmed
  obtain rfl | ⟨body, hbody⟩ := flatMap_printParameter_eq parameters
  · rwa [List.flatMap_nil, List.append_nil]
  · rw [hbody]
    have hlast : ∀ c ∈ (' ' :: (body ++ ['"'])).getLast?, Text.isBlank c = false := by
      rw [← List.cons_append, List.getLast?_concat]
      rintro c ⟨⟩
      decide
    exact Text.isTrimmed_append htrimmed.1 hlast hname.nonempty (by simp)

theorem readDirective_print (hname : IsWord name.toList) (h : ParametersPlain parameters) :
    readDirective (name.toList ++ parameters.flatMap printParameter) = (name, parameters) := by
  have hcut : Text.cutAtBlank (name.toList ++ parameters.flatMap printParameter) =
      (name.toList, parameters.flatMap printParameter) := by
    obtain rfl | ⟨body, hbody⟩ := flatMap_printParameter_eq parameters
    · rw [List.flatMap_nil, List.append_nil, Text.cutAtBlank_of_isSolid hname.solid]
    · rw [hbody, Text.cutAtBlank_append_space hname.solid]
  rw [readDirective, (isTrimmed_directive hname parameters).trim_eq]
  simp only [hcut, String.ofList_toList, readParameters_flatMap h]

end Parameters

end PromptSheet.Template
