import PromptSheet.Warning

/-!
Work that can fail and that leaves warnings. The warnings given before an error stay with it, and
nothing that comes after an error is done.
-/

namespace PromptSheet

@[ext]
structure Logged (ε α : Type) where
  warnings : List Warning := []
  result : Except ε α

namespace Logged

variable {ε ε' α β : Type}

def ofValue (value : α) : Logged ε α :=
  { result := .ok value }

def fail (e : ε) : Logged ε α :=
  { result := .error e }

def warn (warning : Warning) (value : α) : Logged ε α :=
  { warnings := [warning], result := .ok value }

def ofExcept (result : Except ε α) : Logged ε α :=
  { result }

def andThen (first : Logged ε α) (next : α → Logged ε β) : Logged ε β :=
  match first.result with
  | .error e => { warnings := first.warnings, result := .error e }
  | .ok value =>
    let second := next value
    { warnings := first.warnings ++ second.warnings, result := second.result }

def map (f : α → β) (work : Logged ε α) : Logged ε β :=
  { warnings := work.warnings, result := work.result.map f }

def mapError (f : ε → ε') (work : Logged ε α) : Logged ε' α :=
  { warnings := work.warnings, result := work.result.mapError f }

theorem andThen_fail (e : ε) (next : α → Logged ε β) : (fail e).andThen next = fail e :=
  rfl

theorem andThen_ofValue (value : α) (next : α → Logged ε β) :
    (ofValue value).andThen next = next value := by
  simp [andThen, ofValue]

theorem result_andThen (first : Logged ε α) (next : α → Logged ε β) :
    (first.andThen next).result = first.result.bind fun value => (next value).result := by
  rcases first with ⟨warnings, _ | value⟩ <;> rfl

end Logged

end PromptSheet
