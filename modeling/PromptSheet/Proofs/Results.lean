/-!
# Where the results of mapped and chained work come from

Mapping leaves an error as it is, and chained work fails or succeeds by one of its parts.
-/

namespace PromptSheet

variable {ε ε' α β : Type} {result : Except ε α} {e : ε} {value : β}

theorem eq_error_of_map {f : α → β} (h : result.map f = .error e) : result = .error e := by
  cases result with
  | error e' =>
      cases h
      rfl
  | ok => cases h

theorem eq_ok_of_map {f : α → β} (h : result.map f = .ok value) :
    ∃ inner, result = .ok inner ∧ f inner = value := by
  cases result with
  | error e => cases h
  | ok inner => exact ⟨inner, rfl, Except.ok.inj h⟩

theorem eq_error_of_bind {f : α → Except ε β} (h : result.bind f = .error e) :
    result = .error e ∨ ∃ inner, result = .ok inner ∧ f inner = .error e := by
  cases result with
  | error e' =>
      cases h
      exact .inl rfl
  | ok inner => exact .inr ⟨inner, rfl, h⟩

theorem eq_ok_of_bind {f : α → Except ε β} (h : result.bind f = .ok value) :
    ∃ inner, result = .ok inner ∧ f inner = .ok value := by
  cases result with
  | error e => cases h
  | ok inner => exact ⟨inner, rfl, h⟩

theorem eq_error_of_mapError {f : ε → ε'} {e : ε'} (h : result.mapError f = .error e) :
    ∃ cause, result = .error cause ∧ f cause = e := by
  cases result with
  | error cause => exact ⟨cause, rfl, Except.error.inj h⟩
  | ok => cases h

theorem mapError_map (f : ε → ε') (g : α → β) (result : Except ε α) :
    (result.mapError f).map g = (result.map g).mapError f := by
  cases result <;> rfl

theorem mapError_bind (f : ε → ε') (result : Except ε α) (g : α → Except ε β) :
    ((result.mapError f).bind fun value => (g value).mapError f) = (result.bind g).mapError f := by
  cases result <;> rfl

end PromptSheet
