import PromptSheet.Text.Blank

/-!
The directive of an inclusion: a name and then parameters `key=value`. A value is quoted by either
quote, or is a word. Words that belong to no parameter are passed over.
-/

namespace PromptSheet.Template

def cutAtFirst (c : Char) : List Char → Option (List Char × List Char)
  | [] => none
  | d :: rest =>
    if d = c then some ([], rest) else (cutAtFirst c rest).map fun cut => (d :: cut.1, cut.2)

theorem length_of_cutAtFirst {c : Char} {s : List Char} {cut : List Char × List Char}
    (h : cutAtFirst c s = some cut) : cut.1.length + cut.2.length + 1 = s.length := by
  induction s generalizing cut with
  | nil => simp [cutAtFirst] at h
  | cons d rest ih =>
    by_cases hd : d = c
    · simp only [cutAtFirst, hd, if_true, Option.some.injEq] at h
      subst h
      simp
    · simp only [cutAtFirst, hd, if_false, Option.map_eq_some_iff] at h
      obtain ⟨inner, hinner, rfl⟩ := h
      have := ih hinner
      simp only [List.length_cons]
      omega

/-- A value and the text after it. A quote that is never closed takes all that is left. -/
def readQuoted (quote : Char) (body : List Char) : List Char × List Char :=
  (cutAtFirst quote body).getD (body, [])

def readValue : List Char → List Char × List Char
  | '"' :: body => readQuoted '"' body
  | '\'' :: body => readQuoted '\'' body
  | word => Text.cutAtBlank word

theorem length_readQuoted_le (quote : Char) (body : List Char) :
    (readQuoted quote body).2.length ≤ body.length := by
  unfold readQuoted
  cases h : cutAtFirst quote body with
  | none => simp
  | some cut =>
    have := length_of_cutAtFirst h
    simp only [Option.getD_some]
    omega

theorem length_readValue_le (s : List Char) : (readValue s).2.length ≤ s.length := by
  unfold readValue
  split
  · exact Nat.le_succ_of_le (length_readQuoted_le ..)
  · exact Nat.le_succ_of_le (length_readQuoted_le ..)
  · exact (List.dropWhile_suffix _).length_le

set_option linter.unusedVariables false in
/-- The parameters in a text. The key is the last word before the equals sign; without one the value
belongs to no parameter. -/
def readParameters (s : List Char) : List (String × String) :=
  match h : cutAtFirst '=' (Text.trimStart s) with
  | none => []
  | some (before, after) =>
    let key := Text.lastWord (Text.trim before)
    let parameters := readParameters (readValue after).2
    if key.isEmpty then parameters
    else (String.ofList key, String.ofList (readValue after).1) :: parameters
termination_by s.length
decreasing_by
  have hcut := length_of_cutAtFirst h
  have hvalue := length_readValue_le after
  have htrim : (Text.trimStart s).length ≤ s.length := (List.dropWhile_suffix _).length_le
  simp only at hcut
  omega

def readDirective (directive : List Char) : String × List (String × String) :=
  let cut := Text.cutAtBlank (Text.trim directive)
  (String.ofList cut.1, readParameters cut.2)

end PromptSheet.Template
