import Mathlib.Logic.Function.Defs
import PromptSheet.Proofs.Escaped
import PromptSheet.Proofs.PrunedParents
import PromptSheet.Proofs.Trimming

/-!
# Reading an escaped text back

A reader of what stands between quotes takes the character after a backslash as it is and stops at
the first quote that has no backslash to itself. It reads an escaped text as the text that was
escaped, and stops right behind it whatever follows. A quote at the end of an escaped text always has
its backslash, so between quotes such a text looks like an empty value to pruning only if it is empty.
-/

namespace PromptSheet

namespace Text

/-- The text up to the quote that ends it, and what is left after this quote. -/
def readScalar? : List Char → Option (List Char × List Char)
  | [] => none
  | '"' :: rest => some ([], rest)
  | '\\' :: c :: rest => (readScalar? rest).map fun read => (c :: read.1, read.2)
  | c :: rest => (readScalar? rest).map fun read => (c :: read.1, read.2)

section Reading

variable {c : Char} {rest : List Char}

theorem readScalar?_group (c : Char) (rest : List Char) :
    readScalar? ('\\' :: c :: rest) = (readScalar? rest).map fun read => (c :: read.1, read.2) := by
  rw [readScalar?]

theorem readScalar?_plain (hc : ¬IsSpecial c) (rest : List Char) :
    readScalar? (c :: rest) = (readScalar? rest).map fun read => (c :: read.1, read.2) := by
  rw [readScalar?]
  · rintro rfl
    exact hc (.inr rfl)
  · rintro d more rfl
    exact absurd (.inl rfl) hc

theorem readScalar?_escapeChars (s rest : List Char) :
    readScalar? (escapeChars s ++ '"' :: rest) = some (s, rest) := by
  induction s with
  | nil => rfl
  | cons c s ih =>
      rw [escapeChars]
      by_cases hc : c = '\\' ∨ c = '"'
      · rw [if_pos hc, List.cons_append, List.cons_append, readScalar?_group, ih]
        rfl
      · rw [if_neg hc, List.cons_append, readScalar?_plain hc, ih]
        rfl

theorem escapeChars_injective : Function.Injective escapeChars := by
  intro s t h
  have hs := readScalar?_escapeChars s []
  rw [h, readScalar?_escapeChars t []] at hs
  exact (Prod.mk.inj (Option.some.inj hs)).1.symm

theorem escape_injective : Function.Injective escape := by
  intro s t h
  apply String.toList_injective
  apply escapeChars_injective
  rw [escape, escape] at h
  exact String.ofList_injective h

theorem escapeChars_append (first second : List Char) :
    escapeChars (first ++ second) = escapeChars first ++ escapeChars second := by
  induction first with
  | nil => rfl
  | cons c first ih =>
      rw [List.cons_append, escapeChars, escapeChars, ih]
      split <;> rfl

end Reading

end Text

namespace Prune

open Text (escapeChars trimStart)

variable {key value : List Char}

/-- Blanks go from before the key only. -/
theorem trim_field (hvalue : value ≠ []) (hlast : ∀ c ∈ value.getLast?, Text.isBlank c = false) :
    Text.trim (key ++ [':', ' '] ++ value) = trimStart key ++ [':', ' '] ++ value := by
  have hstart : trimStart (key ++ [':', ' '] ++ value) = trimStart key ++ [':', ' '] ++ value := by
    rw [List.append_assoc, Text.trimStart_append (by simp; decide), List.append_assoc]
  rw [Text.trim, hstart]
  apply Text.trimEnd_of_last
  rwa [List.getLast?_append, Option.or_of_isSome (List.getLast?_isSome.2 hvalue)]

/-- The quote before the closing one would be that of an escaped quote, which follows a backslash
and no blank. -/
theorem not_endsEmpty_quoted (s : List Char) (hs : s ≠ []) :
    ¬EndsEmpty ('"' :: (escapeChars s ++ ['"'])) := by
  obtain ⟨front, c, rfl⟩ := (List.eq_nil_or_concat s).resolve_left hs
  rw [List.concat_eq_append, Text.escapeChars_append]
  rintro (⟨before, hbefore⟩ | ⟨before, hbefore⟩)
  · have hreverse := congrArg List.reverse hbefore
    by_cases hc : c = '\\' ∨ c = '"'
    · simp [escapeChars, hc] at hreverse
    · obtain ⟨hquote, -⟩ : c = '"' ∧ _ := by simpa [escapeChars, hc, eq_comm] using hreverse
      exact hc (.inr hquote)
  · have hlast := congrArg List.getLast? hbefore
    rw [List.getLast?_append, ← List.cons_append, List.getLast?_concat] at hlast
    simp at hlast

/-- A line `key: "text"` lacks a value exactly when the text is empty. -/
theorem isEmptyValue_quoted_iff (key s : List Char) :
    isEmptyValue (key ++ [':', ' '] ++ '"' :: (escapeChars s ++ ['"'])) = true ↔ s = [] := by
  have hlast : ∀ c ∈ ('"' :: (escapeChars s ++ ['"'])).getLast?, Text.isBlank c = false := by
    rw [← List.cons_append, List.getLast?_concat]
    rintro c ⟨⟩
    decide
  rw [isEmptyValue_iff, LacksValue, trim_field (by simp) hlast]
  constructor
  · intro h
    by_contra hs
    have hescaped : escapeChars s ≠ [] := fun hnil => hs (Text.escapeChars_injective hnil)
    have hdouble : '"' :: (escapeChars s ++ ['"']) ≠ ['"', '"'] := by simpa using hescaped
    have hsingle : '"' :: (escapeChars s ++ ['"']) ≠ ['\'', '\''] := by simp
    rw [EndsEmpty, suffix_field_iff (by decide) (by simp) hdouble,
      suffix_field_iff (by decide) (by simp) hsingle] at h
    exact not_endsEmpty_quoted s hs h
  · rintro rfl
    exact .inl ⟨trimStart key, by simp [escapeChars]⟩

end Prune

/-- **Escaping is undone by reading.** A reader gets the very text back that was escaped and stops at
the quote behind it, so different texts are escaped differently; and a quoted text is an empty value
to pruning only when nothing stands between the quotes. -/
theorem readScalar?_escape :
    (∀ s rest : String, Text.readScalar? (Text.escape s ++ "\"" ++ rest).toList =
      some (s.toList, rest.toList)) ∧
    Function.Injective Text.escape ∧
    ∀ key s : String,
      Prune.isEmptyValue (key ++ ": \"" ++ Text.escape s ++ "\"").toList = true ↔ s = "" := by
  refine ⟨fun s rest => ?_, Text.escape_injective, fun key s => ?_⟩
  · rw [Text.escape, String.toList_append, String.toList_append, String.toList_ofList,
      List.append_assoc]
    exact Text.readScalar?_escapeChars s.toList rest.toList
  · have hline : (key ++ ": \"" ++ Text.escape s ++ "\"").toList =
        key.toList ++ [':', ' '] ++ '"' :: (Text.escapeChars s.toList ++ ['"']) := by
      simp [Text.escape]
    rw [hline, Prune.isEmptyValue_quoted_iff, String.toList_eq_nil_iff]

end PromptSheet
