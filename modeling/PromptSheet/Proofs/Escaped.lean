import PromptSheet.Text.Quoted

/-!
# Texts that may stand between quotes

A text is escaped when, read from the left, every backslash begins a group of two and every quote
ends one. Put between quotes such a text neither ends the quotation early nor hides its end. What
is escaped or folded on purpose is escaped in this sense, and so is whatever needs no escaping.
-/

namespace PromptSheet.Text

def IsSpecial (c : Char) : Prop :=
  c = '\\' ∨ c = '"'

instance (c : Char) : Decidable (IsSpecial c) :=
  inferInstanceAs (Decidable (_ ∨ _))

def IsOrdinary (s : List Char) : Prop :=
  ∀ c ∈ s, ¬IsSpecial c

instance (s : List Char) : Decidable (IsOrdinary s) :=
  List.decidableBAll _ s

inductive IsEscaped : List Char → Prop where
  | nil : IsEscaped []
  | group {c : Char} {rest : List Char} (hc : IsSpecial c) (hrest : IsEscaped rest) :
      IsEscaped ('\\' :: c :: rest)
  | plain {c : Char} {rest : List Char} (hc : ¬IsSpecial c) (hrest : IsEscaped rest) :
      IsEscaped (c :: rest)

variable {s first : List Char} {c : Char}

theorem isEscaped_escapeChars (s : List Char) : IsEscaped (escapeChars s) := by
  induction s with
  | nil => exact .nil
  | cons c rest ih =>
      rw [escapeChars]
      by_cases hc : c = '\\' ∨ c = '"'
      · rw [if_pos hc]
        exact .group hc ih
      · rw [if_neg hc]
        exact .plain hc ih

theorem isEscaped_escape (content : String) : IsEscaped (escape content).toList := by
  rw [escape, String.toList_ofList]
  exact isEscaped_escapeChars _

theorem isEscaped_fold (content : String) : IsEscaped (fold content).toList := by
  rw [fold, String.toList_ofList]
  exact isEscaped_escapeChars _

theorem isEscaped_cons_plain (hc : ¬IsSpecial c) : IsEscaped (c :: s) ↔ IsEscaped s := by
  constructor
  · intro h
    cases h with
    | group _ _ => exact absurd (.inl rfl) hc
    | plain _ hrest => exact hrest
  · exact .plain hc

theorem IsOrdinary.append {second : List Char} (hfirst : IsOrdinary first)
    (hsecond : IsOrdinary second) : IsOrdinary (first ++ second) :=
  List.forall_mem_append.2 ⟨hfirst, hsecond⟩

theorem IsOrdinary.isEscaped_append (hfirst : IsOrdinary first) :
    IsEscaped (first ++ s) ↔ IsEscaped s := by
  induction first with
  | nil => rfl
  | cons c first ih =>
      obtain ⟨hc, hfirst⟩ := List.forall_mem_cons.1 hfirst
      rw [List.cons_append, isEscaped_cons_plain hc, ih hfirst]

theorem IsOrdinary.isEscaped (h : IsOrdinary s) : IsEscaped s := by
  rw [← List.append_nil s, h.isEscaped_append]
  exact .nil

/-- A last character that needs no escaping cannot be the second of a group. -/
theorem isEscaped_concat_plain (hc : ¬IsSpecial c) : IsEscaped (s ++ [c]) ↔ IsEscaped s := by
  constructor
  · intro h
    generalize hall : s ++ [c] = all at h
    induction h generalizing s with
    | nil => simp at hall
    | @group d rest hd hrest ih =>
        rcases s with _ | ⟨x, _ | ⟨y, s⟩⟩
        · simp at hall
        · obtain ⟨_, rfl, _⟩ : x = '\\' ∧ c = d ∧ rest = [] := by simpa using hall
          exact absurd hd hc
        · obtain ⟨rfl, rfl, hs⟩ : x = '\\' ∧ y = d ∧ s ++ [c] = rest := by simpa using hall
          exact .group hd (ih hs)
    | @plain d rest hd hrest ih =>
        rcases s with _ | ⟨x, s⟩
        · exact .nil
        · obtain ⟨rfl, hs⟩ : x = d ∧ s ++ [c] = rest := by simpa using hall
          exact .plain hd (ih hs)
  · intro h
    induction h with
    | nil => exact .plain hc .nil
    | group hd _ ih => exact .group hd ih
    | plain hd _ ih => exact .plain hd ih

theorem not_isSpecial_of_isDigit (h : c.isDigit = true) : ¬IsSpecial c := by
  rintro (rfl | rfl) <;> revert h <;> decide

theorem isOrdinary_toString_nat (n : Nat) : IsOrdinary (toString n).toList := by
  intro c hc
  rw [Nat.toString_eq_ofList_toDigits, String.toList_ofList] at hc
  exact not_isSpecial_of_isDigit (Nat.isDigit_of_mem_toDigits (by decide) (by decide) hc)

theorem isEscaped_toString_int (n : Int) : IsEscaped (toString n).toList := by
  cases n with
  | ofNat n => exact (isOrdinary_toString_nat n).isEscaped
  | negSucc n =>
      have hsign : (toString (Int.negSucc n)).toList = ['-'] ++ (toString (n + 1)).toList := by
        show ("-" ++ Nat.repr (n + 1)).toList = _
        rw [String.toList_append]
        rfl
      have hminus : IsOrdinary ['-'] := by decide
      rw [hsign, hminus.isEscaped_append]
      exact (isOrdinary_toString_nat (n + 1)).isEscaped

end PromptSheet.Text
