import PromptSheet.Proofs.ReadableTag

/-!
# Directives with blanks and loose words

Between the parameters of an inclusion there may be blanks of any kind and number, and words that
belong to no parameter. A value may stand between quotes, with blanks and equals signs in it, or be a
word of its own. However a directive is written within these bounds, its name and all its parameters
are read in their order: up to the next equals sign there are only loose words and the key, and the
value ends before the next blank that is its own.
-/

namespace PromptSheet.Template

/-- A word that can be a key, with the blanks in front of it. -/
structure SpacedWord where
  gap : List Char
  word : List Char

namespace SpacedWord

def source (spaced : SpacedWord) : List Char :=
  spaced.gap ++ spaced.word

structure IsValid (spaced : SpacedWord) : Prop where
  gap_ne_nil : spaced.gap ≠ []
  blank : ∀ c ∈ spaced.gap, Text.isBlank c = true
  word_ne_nil : spaced.word ≠ []
  solid : Text.IsSolid spaced.word
  noEquals : '=' ∉ spaced.word

instance (spaced : SpacedWord) : Decidable spaced.IsValid :=
  have := List.decidableBAll (fun c => Text.isBlank c = true) spaced.gap
  decidable_of_iff
    (spaced.gap ≠ [] ∧ (∀ c ∈ spaced.gap, Text.isBlank c = true) ∧ spaced.word ≠ [] ∧
      Text.IsSolid spaced.word ∧ '=' ∉ spaced.word)
    ⟨fun h => ⟨h.1, h.2.1, h.2.2.1, h.2.2.2.1, h.2.2.2.2⟩,
      fun h => ⟨h.gap_ne_nil, h.blank, h.word_ne_nil, h.solid, h.noEquals⟩⟩

end SpacedWord

/-- A parameter and the loose words in front of it. -/
structure SpacedParameter where
  loose : List SpacedWord
  key : SpacedWord
  /-- The quote on both sides of the value, if there is one. -/
  quote : Option Char
  value : List Char

namespace SpacedParameter

def valueSource (parameter : SpacedParameter) : List Char :=
  match parameter.quote with
  | some quote => quote :: (parameter.value ++ [quote])
  | none => parameter.value

def source (parameter : SpacedParameter) : List Char :=
  parameter.loose.flatMap SpacedWord.source ++ parameter.key.source ++ '=' :: parameter.valueSource

def entry (parameter : SpacedParameter) : String × String :=
  (String.ofList parameter.key.word, String.ofList parameter.value)

/-- A value between quotes does not have this kind of quote in it; one without is a word, or
nothing, and starts with no quote. -/
structure IsValid (parameter : SpacedParameter) : Prop where
  loose : ∀ spaced ∈ parameter.loose, spaced.IsValid
  key : parameter.key.IsValid
  quoted : ∀ quote ∈ parameter.quote, quote ∈ ['"', '\''] ∧ quote ∉ parameter.value
  bare : parameter.quote = none →
    Text.IsSolid parameter.value ∧
      parameter.value.head? ≠ some '"' ∧ parameter.value.head? ≠ some '\''

instance (parameter : SpacedParameter) : Decidable parameter.IsValid :=
  have := Option.decidableForallMem
    (p := fun quote => quote ∈ ['"', '\''] ∧ quote ∉ parameter.value) parameter.quote
  decidable_of_iff
    ((∀ spaced ∈ parameter.loose, spaced.IsValid) ∧ parameter.key.IsValid ∧
      (∀ quote ∈ parameter.quote, quote ∈ ['"', '\''] ∧ quote ∉ parameter.value) ∧
      (parameter.quote = none →
        Text.IsSolid parameter.value ∧
          parameter.value.head? ≠ some '"' ∧ parameter.value.head? ≠ some '\''))
    ⟨fun h => ⟨h.1, h.2.1, h.2.2.1, h.2.2.2⟩, fun h => ⟨h.loose, h.key, h.quoted, h.bare⟩⟩

end SpacedParameter

structure SpacedDirective where
  name : String
  parameters : List SpacedParameter
  /-- Loose words after the last parameter. -/
  trailing : List SpacedWord

namespace SpacedDirective

def source (directive : SpacedDirective) : List Char :=
  directive.name.toList ++ (directive.parameters.flatMap SpacedParameter.source ++
    directive.trailing.flatMap SpacedWord.source)

structure IsValid (directive : SpacedDirective) : Prop where
  name_ne_empty : directive.name ≠ ""
  name_solid : Text.IsSolid directive.name.toList
  parameters : ∀ parameter ∈ directive.parameters, parameter.IsValid
  trailing : ∀ spaced ∈ directive.trailing, spaced.IsValid

instance (directive : SpacedDirective) : Decidable directive.IsValid :=
  decidable_of_iff
    (directive.name ≠ "" ∧ Text.IsSolid directive.name.toList ∧
      (∀ parameter ∈ directive.parameters, parameter.IsValid) ∧
      ∀ spaced ∈ directive.trailing, spaced.IsValid)
    ⟨fun h => ⟨h.1, h.2.1, h.2.2.1, h.2.2.2⟩,
      fun h => ⟨h.name_ne_empty, h.name_solid, h.parameters, h.trailing⟩⟩

end SpacedDirective

/-- Such a text goes on with a blank, unless it is empty. -/
def StartsBlank (s : List Char) : Prop :=
  ∀ c ∈ s.head?, Text.isBlank c = true

def EndsSolid (s : List Char) : Prop :=
  ∀ c ∈ s.getLast?, Text.isBlank c = false

section Ends

variable {α : Type} {first second : List Char} {write : α → List Char} {items : List α}

theorem StartsBlank.append (hfirst : StartsBlank first) (hsecond : StartsBlank second) :
    StartsBlank (first ++ second) := by
  cases first with
  | nil => exact hsecond
  | cons c first => exact hfirst

theorem EndsSolid.append (hfirst : EndsSolid first) (hsecond : EndsSolid second) :
    EndsSolid (first ++ second) := by
  rcases List.eq_nil_or_concat second with rfl | ⟨front, c, rfl⟩
  · rwa [List.append_nil]
  · intro d hd
    rw [List.concat_eq_append, ← List.append_assoc, List.getLast?_concat] at hd
    exact hsecond d (by rwa [List.concat_eq_append, List.getLast?_concat])

theorem StartsBlank.flatMap (h : ∀ item ∈ items, StartsBlank (write item)) :
    StartsBlank (items.flatMap write) := by
  induction items with
  | nil => exact fun c hc => by cases hc
  | cons item items ih =>
      obtain ⟨hitem, hitems⟩ := List.forall_mem_cons.1 h
      exact hitem.append (ih hitems)

theorem EndsSolid.flatMap (h : ∀ item ∈ items, EndsSolid (write item)) :
    EndsSolid (items.flatMap write) := by
  induction items with
  | nil => exact fun c hc => by cases hc
  | cons item items ih =>
      obtain ⟨hitem, hitems⟩ := List.forall_mem_cons.1 h
      exact hitem.append (ih hitems)

end Ends

namespace SpacedWord.IsValid

variable {spaced : SpacedWord} (h : spaced.IsValid)

include h

theorem startsBlank : StartsBlank spaced.source := by
  intro c hc
  rw [source, List.head?_append, Option.or_of_isSome (by simpa using h.gap_ne_nil)] at hc
  exact h.blank c (List.mem_of_mem_head? hc)

theorem endsSolid : EndsSolid spaced.source := by
  intro c hc
  rw [source, List.getLast?_append, Option.or_of_isSome (List.getLast?_isSome.2 h.word_ne_nil)] at hc
  exact h.solid c (List.mem_of_getLast? hc)

theorem noEquals_gap : '=' ∉ spaced.gap := by
  intro hmem
  have hblank := h.blank '=' hmem
  revert hblank
  decide

end SpacedWord.IsValid

theorem noEquals_words {words : List SpacedWord} (h : ∀ spaced ∈ words, spaced.IsValid) :
    '=' ∉ words.flatMap SpacedWord.source := by
  intro hmem
  obtain ⟨spaced, hspaced, hequals⟩ := List.mem_flatMap.1 hmem
  have hvalid := h spaced hspaced
  exact (List.mem_append.1 hequals).elim hvalid.noEquals_gap hvalid.noEquals

namespace SpacedParameter.IsValid

variable {parameter : SpacedParameter} (h : parameter.IsValid)

include h

theorem startsBlank : StartsBlank parameter.source := by
  rw [source, List.append_assoc]
  refine (StartsBlank.flatMap fun spaced hspaced => (h.loose spaced hspaced).startsBlank).append ?_
  intro c hc
  rw [List.head?_append, Option.or_of_isSome] at hc
  · exact h.key.startsBlank c hc
  · simp [SpacedWord.source, h.key.gap_ne_nil]

theorem endsSolid_valueSource : EndsSolid parameter.valueSource := by
  intro c hc
  rw [valueSource] at hc
  split at hc
  · next quote hquote =>
    rw [← List.cons_append, List.getLast?_concat] at hc
    cases hc
    have hkind := (h.quoted _ hquote).1
    simp only [List.mem_cons, List.not_mem_nil, or_false] at hkind
    rcases hkind with rfl | rfl <;> decide
  · next hbare => exact (h.bare hbare).1 c (List.mem_of_getLast? hc)

theorem endsSolid : EndsSolid parameter.source := by
  have hloose : EndsSolid (parameter.loose.flatMap SpacedWord.source) :=
    .flatMap fun spaced hspaced => (h.loose spaced hspaced).endsSolid
  have hequals : EndsSolid ['='] := by
    rintro c ⟨⟩
    decide
  exact (hloose.append h.key.endsSolid).append (hequals.append h.endsSolid_valueSource)

theorem readValue_valueSource {rest : List Char} (hrest : StartsBlank rest) :
    readValue (parameter.valueSource ++ rest) = (parameter.value, rest) := by
  rw [valueSource]
  split
  · next quote hquote =>
    obtain ⟨hkind, hnone⟩ := h.quoted _ hquote
    simp only [List.mem_cons, List.not_mem_nil, or_false] at hkind
    rw [List.cons_append, List.append_assoc]
    rcases hkind with rfl | rfl <;> exact readQuoted_append rest hnone
  · next hbare =>
    obtain ⟨hsolid, hhead⟩ := h.bare hbare
    exact readValue_word hsolid (by simpa using hhead) hrest

/-- One parameter is read, and reading goes on right behind its value. -/
theorem readParameters_source {rest : List Char} (hrest : StartsBlank rest) :
    readParameters (parameter.source ++ rest) = parameter.entry :: readParameters rest := by
  have hsource : parameter.source ++ rest =
      (parameter.loose.flatMap SpacedWord.source ++ parameter.key.gap) ++
        (parameter.key.word ++ '=' :: (parameter.valueSource ++ rest)) := by
    simp [source, SpacedWord.source]
  have hfront : '=' ∉ parameter.loose.flatMap SpacedWord.source ++ parameter.key.gap := by
    rw [List.mem_append, not_or]
    exact ⟨noEquals_words h.loose, h.key.noEquals_gap⟩
  have hlast : ∀ c ∈ (parameter.loose.flatMap SpacedWord.source ++ parameter.key.gap).getLast?,
      Text.isBlank c = true := by
    intro c hc
    rw [List.getLast?_append,
      Option.or_of_isSome (List.getLast?_isSome.2 h.key.gap_ne_nil)] at hc
    exact h.key.blank c (List.mem_of_getLast? hc)
  rw [hsource, readParameters_key hfront hlast h.key.word_ne_nil h.key.solid h.key.noEquals
    (h.readValue_valueSource hrest)]
  rfl

end SpacedParameter.IsValid

theorem readParameters_words {words : List SpacedWord} (h : ∀ spaced ∈ words, spaced.IsValid) :
    readParameters (words.flatMap SpacedWord.source) = [] := by
  apply readParameters_of_cut_eq_none
  rw [cutAtFirst_eq_none_iff]
  exact fun hmem => noEquals_words h ((List.dropWhile_suffix _).subset hmem)

theorem readParameters_spaced {parameters : List SpacedParameter} {words : List SpacedWord}
    (h : ∀ parameter ∈ parameters, parameter.IsValid) (hwords : ∀ spaced ∈ words, spaced.IsValid) :
    readParameters (parameters.flatMap SpacedParameter.source ++ words.flatMap SpacedWord.source) =
      parameters.map SpacedParameter.entry := by
  induction parameters with
  | nil => exact readParameters_words hwords
  | cons parameter parameters ih =>
      obtain ⟨hparameter, hparameters⟩ := List.forall_mem_cons.1 h
      have hrest : StartsBlank
          (parameters.flatMap SpacedParameter.source ++ words.flatMap SpacedWord.source) :=
        (StartsBlank.flatMap fun next hnext => (hparameters next hnext).startsBlank).append
          (.flatMap fun spaced hspaced => (hwords spaced hspaced).startsBlank)
      rw [List.flatMap_cons, List.append_assoc, hparameter.readParameters_source hrest,
        ih hparameters, List.map_cons]

/-- **Every parameter is recovered**, whatever blanks and loose words stand between them and however
their values are quoted. -/
theorem readDirective_spaced (directive : SpacedDirective) (h : directive.IsValid) :
    readDirective directive.source =
      (directive.name, directive.parameters.map SpacedParameter.entry) := by
  have hname : directive.name.toList ≠ [] := by simpa using h.name_ne_empty
  have hparameters : StartsBlank (directive.parameters.flatMap SpacedParameter.source) ∧
      EndsSolid (directive.parameters.flatMap SpacedParameter.source) :=
    ⟨.flatMap fun parameter hparameter => (h.parameters parameter hparameter).startsBlank,
      .flatMap fun parameter hparameter => (h.parameters parameter hparameter).endsSolid⟩
  have htrailing : StartsBlank (directive.trailing.flatMap SpacedWord.source) ∧
      EndsSolid (directive.trailing.flatMap SpacedWord.source) :=
    ⟨.flatMap fun spaced hspaced => (h.trailing spaced hspaced).startsBlank,
      .flatMap fun spaced hspaced => (h.trailing spaced hspaced).endsSolid⟩
  have htrimmed : Text.IsTrimmed directive.source := by
    refine ⟨?_, EndsSolid.append h.name_solid.isTrimmed.2 (hparameters.2.append htrailing.2)⟩
    rw [SpacedDirective.source, List.head?_append, Option.or_of_isSome (by simpa using hname)]
    exact h.name_solid.isTrimmed.1
  rw [readDirective, htrimmed.trim_eq, SpacedDirective.source,
    Text.cutAtBlank_word_append h.name_solid (hparameters.1.append htrailing.1)]
  simp only [String.ofList_toList, readParameters_spaced h.parameters h.trailing]

/-- A card with a loose word that looks like the start of a quotation, equals signs and the other quote
inside of values, a value that is nothing at all, and a loose word at the end. -/
def spacedCard : SpacedDirective where
  name := "card"
  parameters :=
    [{ loose := [⟨[' '], ['"', 'x']⟩], key := ⟨['\t', ' '], ['t', 'i', 't', 'l', 'e']⟩,
       quote := some '"', value := "a = 'b'".toList },
     { loose := [], key := ⟨[' '], ['n']⟩, quote := none, value := "1=2\"".toList },
     { loose := [], key := ⟨['\n'], ['\'']⟩, quote := none, value := [] }]
  trailing := [⟨[' ', '\u3000'], ['e', 'n', 'd']⟩]

theorem readDirective_spacedCard :
    spacedCard.IsValid ∧ readDirective spacedCard.source =
      ("card", [("title", "a = 'b'"), ("n", "1=2\""), ("'", "")]) := by
  have hvalid : spacedCard.IsValid := by decide
  exact ⟨hvalid, readDirective_spaced spacedCard hvalid⟩

end PromptSheet.Template
