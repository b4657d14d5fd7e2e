import Mathlib.Data.Nat.Find
import PromptSheet.Proofs.PrunedLines

/-!
# What a second pruning would take away

A document is left as it is when all of its lines stay and no gap in it is wider than one line. After
one pruning no line lacks a value and every gap is closed, and since then every line that is neither
blank nor a comment is a value for the lines around it, a header stays if the next such line is deeper.
This is so of itself for a line that is a header only for the sake of the line right below it. A bare
key alone can be left with nothing: it was a value for the header around it, or is followed by what
stood further out, once the lines that belonged to it are gone.
-/

namespace PromptSheet.Prune

variable {document lines : List Line} {line : Line} {afterBlank : Bool} {i width : Nat}

/-- A key alone on its line. -/
def IsBareHeader (line : Line) : Prop :=
  IsContent line ∧ [':'] <:+ Text.trim line ∧ ¬[':', ' '] <:+: Text.trim line

/-- The next line that is neither blank nor a comment is deeper. -/
def HasDeeperNext (document : List Line) (i width : Nat) : Prop :=
  ∃ j, i < j ∧ (∃ next ∈ document[j]?, IsContent next ∧ width < indent next) ∧
    ∀ k, i < k → k < j → ∀ between ∈ document[k]?, ¬IsContent between

theorem liveLines_eq_self_iff (h : document.drop i = lines) :
    liveLines lines = lines ↔ ∀ k, i ≤ k → k < document.length → Stays document k := by
  induction lines generalizing i with
  | nil =>
      have hend : document.length ≤ i := List.drop_eq_nil_iff.1 h
      refine ⟨fun _ k hik hk => ?_, fun _ => rfl⟩
      omega
  | cons line below ih =>
      have hrest := ih (drop_succ_of_drop h)
      have hi : i < document.length := (List.getElem?_eq_some_iff.1 (getElem?_of_drop h)).1
      rw [liveLines]
      by_cases hstays : stays line below = true
      · have hstaysAt : Stays document i := (stays_iff h).1 hstays
        rw [if_pos hstays, List.cons.injEq, hrest]
        constructor
        · rintro ⟨-, hlater⟩ k hik hk
          by_cases hki : k = i
          · exact hki ▸ hstaysAt
          · exact hlater k (by omega) hk
        · intro hall
          exact ⟨rfl, fun k hik hk => hall k (by omega) hk⟩
      · rw [if_neg hstays]
        constructor
        · intro heq
          have hshorter := (liveLines_sublist below).length_le
          rw [heq, List.length_cons] at hshorter
          omega
        · intro hall
          exact absurd ((stays_iff h).2 (hall i (Nat.le_refl i) hi)) hstays

theorem closeGaps_eq_self
    (hchain : lines.IsChain fun line next => ¬(isBlankLine line ∧ isBlankLine next))
    (hhead : ∀ line ∈ lines.head?, ¬(isBlankLine line ∧ afterBlank)) :
    closeGaps afterBlank lines = lines := by
  induction lines generalizing afterBlank with
  | nil => rfl
  | cons line below ih =>
      obtain ⟨hnext, hbelow⟩ := List.isChain_cons.1 hchain
      have hopen : ¬(isBlankLine line && afterBlank) = true := by
        simpa using hhead line rfl
      rw [closeGaps, if_neg hopen]
      refine congrArg (line :: ·) (ih hbelow fun next hmem hboth => ?_)
      exact hnext next hmem hboth.symm

theorem pruneLines_eq_self_iff
    (hchain : document.IsChain fun line next => ¬(isBlankLine line ∧ isBlankLine next)) :
    pruneLines document = document ↔ ∀ i < document.length, Stays document i := by
  have hwhole : document.drop 0 = document := List.drop_zero
  have hlive : liveLines document = document ↔ ∀ i < document.length, Stays document i := by
    simpa using liveLines_eq_self_iff hwhole
  rw [← hlive, pruneLines]
  constructor
  · intro heq
    have hsub := closeGaps_sublist false (liveLines document)
    rw [heq] at hsub
    exact (liveLines_sublist document).antisymm hsub
  · intro heq
    rw [heq]
    exact closeGaps_eq_self hchain (by simp)

/-- A text is left as it is when its lines are. -/
theorem prune_eq_self_iff {text : String} :
    prune text = text ↔
      pruneLines (Text.splitOn '\n' text.toList) = Text.splitOn '\n' text.toList := by
  constructor
  · intro heq
    by_cases hnone : pruneLines (Text.splitOn '\n' text.toList) = []
    · have hempty : text = "" := by
        rw [← heq, prune, hnone]
        rfl
      subst hempty
      rfl
    · rw [← splitOn_prune hnone, heq]
  · intro heq
    rw [prune, heq, Text.joinWith_splitOn, String.ofList_toList]

section Valued

variable (hvalues : ∀ line ∈ document, ¬LacksValue line)

include hvalues

theorem hasValueBelow_iff_hasDeeperNext :
    HasValueBelow document i width ↔ HasDeeperNext document i width := by
  classical
  constructor
  · rintro ⟨j, hij, ⟨line, hline, hcontent, -⟩, hdeeper⟩
    have hsome : ∃ k, i < k ∧ ∃ found ∈ document[k]?, IsContent found := ⟨j, hij, line, hline, hcontent⟩
    obtain ⟨hik, next, hnext, hfirst⟩ := Nat.find_spec hsome
    have hle : Nat.find hsome ≤ j := Nat.find_min' hsome ⟨hij, line, hline, hcontent⟩
    refine ⟨_, hik, ⟨next, hnext, hfirst, hdeeper _ hik hle next hnext hfirst⟩, ?_⟩
    intro k hk hkfirst between hbetween hbetweenContent
    exact Nat.find_min hsome hkfirst ⟨hk, between, hbetween, hbetweenContent⟩
  · rintro ⟨j, hij, ⟨next, hnext, hcontent, hdeep⟩, hremarks⟩
    have hvalued : IsValued next := ⟨hcontent, hvalues next (List.mem_of_getElem? hnext)⟩
    refine ⟨j, hij, ⟨next, hnext, hvalued⟩, fun k hik hkj between hbetween hbetweenContent => ?_⟩
    by_cases hk : k = j
    · subst hk
      cases hnext.symm.trans hbetween
      exact hdeep
    · exact absurd hbetweenContent (hremarks k hik (by omega) between hbetween)

/-- Where all lines have values, only a bare key can be left with nothing. -/
theorem stays_iff_of_valued (hline : document[i]? = some line) :
    Stays document i ↔ (IsBareHeader line → HasDeeperNext document i (indent line)) := by
  have hvalue : ¬LacksValue line := hvalues line (List.mem_of_getElem? hline)
  rw [Stays, hline]
  simp only [Option.mem_def, Option.some.injEq, exists_eq_left', hvalue, not_false_eq_true, true_and,
    hasValueBelow_iff_hasDeeperNext hvalues]
  constructor
  · rintro (hheader | hnext) hbare
    · exact absurd ⟨line, hline, hbare.1, .inl hbare.2⟩ hheader
    · exact hnext
  · intro hbelow
    refine or_iff_not_imp_left.2 fun hheader => ?_
    obtain ⟨found, hfound, hcontent, hbare | hnext⟩ := Classical.not_not.1 hheader
    · cases hline.symm.trans hfound
      exact hbelow ⟨hcontent, hbare⟩
    · cases hline.symm.trans hfound
      refine ⟨i + 1, by omega, hnext, fun k hik hk => ?_⟩
      omega

end Valued

/-- The lines of a pruned text, of which there is one if nothing is left. -/
theorem forall_lines_prune (text : String) :
    let document := Text.splitOn '\n' (prune text).toList
    (∀ line ∈ document, ¬LacksValue line) ∧
      document.IsChain fun line next => ¬(isBlankLine line ∧ isBlankLine next) := by
  intro document
  obtain ⟨places, -, -, -, -, hvalues, hchain, hlines⟩ := exists_shown_prune text
  by_cases hplaces : places = []
  · rw [if_pos hplaces] at hlines
    have hdocument : document = [[]] := by
      rw [show document = Text.splitOn '\n' (prune text).toList from rfl, hlines]
      rfl
    rw [hdocument]
    exact ⟨by decide, .singleton _⟩
  · rw [if_neg hplaces] at hlines
    rw [show document = _ from hlines]
    simp only [isBlankLine_iff]
    exact ⟨hvalues, hchain⟩

/-- **One pruning is enough** exactly when it leaves no bare key that nothing belongs to. -/
theorem prune_prune_eq_iff (text : String) :
    let document := Text.splitOn '\n' (prune text).toList
    prune (prune text) = prune text ↔
      ∀ i line, document[i]? = some line → IsBareHeader line →
        HasDeeperNext document i (indent line) := by
  intro document
  obtain ⟨hvalues, hchain⟩ := forall_lines_prune text
  rw [prune_eq_self_iff, pruneLines_eq_self_iff hchain]
  constructor
  · intro hstays i line hline
    have hi : i < document.length := (List.getElem?_eq_some_iff.1 hline).1
    exact (stays_iff_of_valued hvalues hline).1 (hstays i hi)
  · intro hheaders i hi
    have hline : document[i]? = some document[i] := List.getElem?_eq_getElem hi
    exact (stays_iff_of_valued hvalues hline).2 (hheaders i _ hline)

/-- What a bare key held can go, and the key only with the next pruning. -/
example : prune "outer:\n  inner:\n    gone: \"\"\nend: 1" = "outer:\nend: 1" ∧
    prune "outer:\nend: 1" = "end: 1" := by
  decide

end PromptSheet.Prune
