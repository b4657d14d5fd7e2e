import Mathlib.Data.List.Chain
import PromptSheet.Proofs.FilePlaces
import PromptSheet.Prune

/-!
# Which lines of a document pruning leaves

Whether a line stays is decided by the line and the lines below it, and can be said of its place in
the document: what counts is the next line with a value that is reached over deeper lines only. The
lines that stay are shown in their order. Only of several blank lines that come to stand together is
the first alone shown, and which these are is settled after the others have gone.
-/

namespace PromptSheet

namespace Text

variable {sep : Char}

theorem joinWith_eq_intercalate (sep : List Char) (pieces : List (List Char)) :
    joinWith sep pieces = sep.intercalate pieces := by
  fun_induction joinWith sep pieces with
  | case1 => rfl
  | case2 piece => simp
  | case3 piece pieces hpieces ih =>
      rw [ih, List.intercalate_cons_of_ne_nil (fun h => hpieces h)]

theorem not_mem_of_mem_splitOn {s piece : List Char} (h : piece ∈ splitOn sep s) : sep ∉ piece := by
  induction s generalizing piece with
  | nil => simp_all [splitOn]
  | cons c s ih =>
      rw [splitOn] at h
      by_cases hc : c = sep
      · rw [if_pos hc] at h
        rcases List.mem_cons.1 h with rfl | h
        · exact List.not_mem_nil
        · exact ih h
      · rw [if_neg hc] at h
        cases hrest : splitOn sep s with
        | nil => exact absurd hrest (splitOn_ne_nil sep s)
        | cons first pieces =>
            rw [hrest] at h ih
            rcases List.mem_cons.1 h with rfl | h
            · exact List.not_mem_cons_of_ne_of_not_mem (Ne.symm hc) (ih List.mem_cons_self)
            · exact ih (List.mem_cons_of_mem _ h)

theorem splitOn_joinWith {pieces : List (List Char)} (hne : pieces ≠ [])
    (hfree : ∀ piece ∈ pieces, sep ∉ piece) : splitOn sep (joinWith [sep] pieces) = pieces := by
  rw [splitOn_eq, joinWith_eq_intercalate]
  exact List.splitOn_intercalate sep hfree hne

theorem mem_joinWith {sep piece : List Char} {pieces : List (List Char)} {c : Char}
    (hc : c ∈ piece) (h : piece ∈ pieces) : c ∈ joinWith sep pieces := by
  fun_induction joinWith sep pieces with
  | case1 => cases h
  | case2 first =>
      obtain rfl := List.mem_singleton.1 h
      exact hc
  | case3 first rest _ ih =>
      rcases List.mem_cons.1 h with rfl | h
      · exact List.mem_append_left _ (List.mem_append_left _ hc)
      · exact List.mem_append_right _ (ih h)

end Text

namespace Prune

variable {document lines below : List Line} {line : Line} {i j k width : Nat}

def EndsEmpty (s : List Char) : Prop :=
  [':', ' ', '"', '"'] <:+ s ∨ [':', ' ', '\'', '\''] <:+ s

def LacksValue (line : Line) : Prop :=
  EndsEmpty (Text.trim line)

/-- Neither blank nor a comment. -/
def IsContent (line : Line) : Prop :=
  Text.trim line ≠ [] ∧ (Text.trim line).head? ≠ some '#'

def IsValued (line : Line) : Prop :=
  IsContent line ∧ ¬LacksValue line

instance (s : List Char) : Decidable (EndsEmpty s) :=
  inferInstanceAs (Decidable (_ ∨ _))

instance (line : Line) : Decidable (LacksValue line) :=
  inferInstanceAs (Decidable (EndsEmpty _))

instance (line : Line) : Decidable (IsContent line) :=
  inferInstanceAs (Decidable (_ ∧ _))

instance (line : Line) : Decidable (IsValued line) :=
  inferInstanceAs (Decidable (_ ∧ _))

theorem isEmptyValue_iff : isEmptyValue line = true ↔ LacksValue line := by
  rw [isEmptyValue, Bool.or_eq_true, List.isSuffixOf_iff_suffix, List.isSuffixOf_iff_suffix]
  rfl

theorem isBlankLine_iff : isBlankLine line = true ↔ Text.trim line = [] :=
  List.isEmpty_iff

theorem isRemark_iff : isRemark line = true ↔ ¬IsContent line := by
  rw [isRemark, IsContent]
  cases Text.trim line with
  | nil => simp
  | cons c rest => simp

theorem not_isRemark_iff : ¬isRemark line = true ↔ IsContent line := by
  rw [isRemark_iff, Classical.not_not]

theorem hasColonSpace_iff : hasColonSpace line = true ↔ [':', ' '] <:+: line := by
  fun_induction hasColonSpace line with
  | case1 rest => simp [List.infix_cons_iff]
  | case2 c rest h ih =>
      rw [ih, List.infix_cons_iff]
      constructor
      · exact .inr
      · rintro (hstart | hinfix)
        · obtain ⟨after, hafter⟩ := hstart
          obtain ⟨hc, hrest⟩ := List.cons.inj hafter
          exact (h after hc.symm hrest.symm).elim
        · exact hinfix
  | case3 => simp

/-- A key alone, or a line with a deeper one right below it. -/
def IsHeaderAt (document : List Line) (i : Nat) : Prop :=
  ∃ line ∈ document[i]?, IsContent line ∧
    ([':'] <:+ Text.trim line ∧ ¬[':', ' '] <:+: Text.trim line ∨
      ∃ next ∈ document[i + 1]?, IsContent next ∧ indent line < indent next)

/-- Some line below a place has a value, and all that is not blank or a comment is deeper from there
to this line. -/
def HasValueBelow (document : List Line) (i width : Nat) : Prop :=
  ∃ j, i < j ∧ (∃ line ∈ document[j]?, IsValued line) ∧
    ∀ k, i < k → k ≤ j → ∀ line ∈ document[k]?, IsContent line → width < indent line

def Stays (document : List Line) (i : Nat) : Prop :=
  ∃ line ∈ document[i]?, ¬LacksValue line ∧
    (¬IsHeaderAt document i ∨ HasValueBelow document i (indent line))

def IsBlankAt (document : List Line) (i : Nat) : Prop :=
  ∃ line ∈ document[i]?, Text.trim line = []

/-- Of the lines before a place that stay, the last is blank. -/
def FollowsBlank (document : List Line) (i : Nat) : Prop :=
  ∃ j, j < i ∧ Stays document j ∧ IsBlankAt document j ∧
    ∀ k, j < k → k < i → ¬Stays document k

/-- A line that stays is shown unless it is blank and follows a blank one. -/
def IsShown (document : List Line) (i : Nat) : Prop :=
  Stays document i ∧ ¬(IsBlankAt document i ∧ FollowsBlank document i)

theorem getElem?_of_drop (h : document.drop i = line :: below) : document[i]? = some line := by
  have hhead := congrArg List.head? h
  rwa [List.head?_drop] at hhead

theorem drop_succ_of_drop (h : document.drop i = line :: below) : document.drop (i + 1) = below := by
  rw [← List.tail_drop, h, List.tail_cons]

theorem isHeader_iff (h : document.drop i = line :: below) :
    isHeader line below = true ↔ IsHeaderAt document i := by
  have hbare : isBareKey line = true ↔ [':'] <:+ Text.trim line ∧ ¬[':', ' '] <:+: Text.trim line := by
    rw [isBareKey, Bool.and_eq_true, List.isSuffixOf_iff_suffix, Bool.not_eq_true',
      ← Bool.not_eq_true, hasColonSpace_iff]
  have hnext : document[i + 1]? = below.head? := by
    rw [← drop_succ_of_drop h, List.head?_drop]
  rw [IsHeaderAt, getElem?_of_drop h, hnext]
  cases below with
  | nil => simp [isHeader, hbare, ← not_isRemark_iff]
  | cons next rest => simp [isHeader, hbare, ← not_isRemark_iff]

/-- One line of the search for a value. -/
theorem hasValueBelow_iff_of_getElem? (h : document[i + 1]? = some line) :
    HasValueBelow document i width ↔
      (IsContent line → width < indent line) ∧
        (IsValued line ∨ HasValueBelow document (i + 1) width) := by
  constructor
  · rintro ⟨j, hij, hvalue, hdeeper⟩
    refine ⟨hdeeper (i + 1) (by omega) (by omega) line h, ?_⟩
    by_cases hj : j = i + 1
    · obtain ⟨found, hfound, hvalued⟩ := hvalue
      rw [hj, h] at hfound
      cases hfound
      exact .inl hvalued
    · refine .inr ⟨j, by omega, hvalue, fun k hk hkj => ?_⟩
      exact hdeeper k (by omega) hkj
  · rintro ⟨hdeep, hvalue⟩
    have hfirst : ∀ found ∈ document[i + 1]?, IsContent found → width < indent found := by
      intro found hfound
      rw [h] at hfound
      cases hfound
      exact hdeep
    rcases hvalue with hvalued | ⟨j, hj, hvalue, hdeeper⟩
    · refine ⟨i + 1, by omega, ⟨line, h, hvalued⟩, fun k hk hki => ?_⟩
      obtain rfl : k = i + 1 := by omega
      exact hfirst
    · refine ⟨j, by omega, hvalue, fun k hk hkj => ?_⟩
      by_cases hki : k = i + 1
      · exact hki ▸ hfirst
      · exact hdeeper k (by omega) hkj

theorem hasLiveLine_iff (h : document.drop (i + 1) = below) :
    hasLiveLine width below = true ↔ HasValueBelow document i width := by
  induction below generalizing i with
  | nil =>
      have hend : document.length ≤ i + 1 := List.drop_eq_nil_iff.1 h
      simp only [hasLiveLine, Bool.false_eq_true, false_iff]
      rintro ⟨j, hij, ⟨line, hline, -⟩, -⟩
      have hj : j < document.length := (List.getElem?_eq_some_iff.1 hline).1
      omega
  | cons line below ih =>
      have hrest := ih (drop_succ_of_drop h)
      rw [hasLiveLine, hasValueBelow_iff_of_getElem? (getElem?_of_drop h), IsValued]
      by_cases hremark : isRemark line = true
      · have hcontent : ¬IsContent line := isRemark_iff.1 hremark
        simp [hremark, hcontent, hrest]
      · have hcontent : IsContent line := not_isRemark_iff.1 hremark
        by_cases hwidth : indent line ≤ width
        · have hdeep : ¬width < indent line := Nat.not_lt.2 hwidth
          simp [hremark, hcontent, hwidth, hdeep]
        · by_cases hempty : isEmptyValue line = true
          · have hlacks : LacksValue line := isEmptyValue_iff.1 hempty
            simp [hremark, hwidth, hempty, hlacks, hrest, Nat.lt_of_not_le hwidth]
          · have hlacks : ¬LacksValue line := fun hlacks => hempty (isEmptyValue_iff.2 hlacks)
            simp [hremark, hcontent, hwidth, hempty, hlacks, Nat.lt_of_not_le hwidth]

theorem stays_iff (h : document.drop i = line :: below) :
    stays line below = true ↔ Stays document i := by
  rw [stays, Bool.and_eq_true, Bool.or_eq_true, Bool.not_eq_true', Bool.not_eq_true',
    ← Bool.not_eq_true, ← Bool.not_eq_true, isEmptyValue_iff, isHeader_iff h,
    hasLiveLine_iff (drop_succ_of_drop h), Stays, getElem?_of_drop h]
  simp

/-! ### What is shown

A blank line is left out if the last line that stayed before it is blank. This is carried along from
line to line, as the pass over the document does it.
-/

theorem followsBlank_succ (h : Stays document i) :
    FollowsBlank document (i + 1) ↔ IsBlankAt document i := by
  constructor
  · rintro ⟨j, hj, -, hblank, hlast⟩
    by_cases hij : j = i
    · exact hij ▸ hblank
    · exact absurd h (hlast i (by omega) (by omega))
  · intro hblank
    exact ⟨i, by omega, h, hblank, fun k hk hki => by omega⟩

theorem followsBlank_succ_of_not_stays (h : ¬Stays document i) :
    FollowsBlank document (i + 1) ↔ FollowsBlank document i := by
  constructor
  · rintro ⟨j, hj, hstays, hblank, hlast⟩
    have hij : j ≠ i := fun hij => h (hij ▸ hstays)
    exact ⟨j, by omega, hstays, hblank, fun k hk hki => hlast k hk (by omega)⟩
  · rintro ⟨j, hj, hstays, hblank, hlast⟩
    refine ⟨j, by omega, hstays, hblank, fun k hk hki => ?_⟩
    by_cases hik : k = i
    · exact hik ▸ h
    · exact hlast k hk (by omega)

theorem not_followsBlank_zero : ¬FollowsBlank document 0 := by
  rintro ⟨j, hj, -⟩
  omega

/-- The places that are shown, in their order. -/
noncomputable def shownPlaces (document : List Line) : List Nat :=
  open Classical in
  (List.range document.length).filter fun i => IsShown document i

def linesAt (document : List Line) (places : List Nat) : List Line :=
  places.filterMap fun i => document[i]?

theorem Stays.lt_length (h : Stays document i) : i < document.length := by
  obtain ⟨line, hline, -⟩ := h
  exact (List.getElem?_eq_some_iff.1 hline).1

theorem mem_shownPlaces : i ∈ shownPlaces document ↔ IsShown document i := by
  classical
  rw [shownPlaces, List.mem_filter, List.mem_range, decide_eq_true_eq]
  constructor
  · exact And.right
  · intro h
    exact ⟨h.1.lt_length, h⟩

theorem pairwise_shownPlaces (document : List Line) : (shownPlaces document).Pairwise (· < ·) :=
  List.pairwise_lt_range.filter _

/-- What is left of a document from some place on, where the gap that may be open at this place is
known. -/
theorem linesAt_filter_range' {afterBlank : Bool} (h : document.drop i = lines)
    (hblank : afterBlank = true ↔ FollowsBlank document i) :
    open Classical in
    linesAt document ((List.range' i lines.length).filter fun k => IsShown document k) =
      closeGaps afterBlank (liveLines lines) := by
  classical
  induction lines generalizing i afterBlank with
  | nil => rfl
  | cons line below ih =>
      have hline := getElem?_of_drop h
      have hbelow := drop_succ_of_drop h
      have hblankAt : isBlankLine line = true ↔ IsBlankAt document i := by
        rw [isBlankLine_iff, IsBlankAt, hline]
        simp
      rw [List.length_cons, List.range'_succ, liveLines]
      by_cases hstays : stays line below = true
      · have hstaysAt : Stays document i := (stays_iff h).1 hstays
        have hnext := hblankAt.trans (followsBlank_succ hstaysAt).symm
        rw [if_pos hstays, closeGaps]
        by_cases hgap : (isBlankLine line && afterBlank) = true
        · obtain ⟨hblankLine, hafter⟩ := Bool.and_eq_true_iff.1 hgap
          have hshown : ¬IsShown document i := fun hshown =>
            hshown.2 ⟨hblankAt.1 hblankLine, hblank.1 hafter⟩
          rw [if_pos hgap, List.filter_cons_of_neg (by simpa using hshown)]
          exact ih hbelow (hblankLine ▸ hnext)
        · have hshown : IsShown document i := by
            refine ⟨hstaysAt, fun hboth => hgap ?_⟩
            exact Bool.and_eq_true_iff.2 ⟨hblankAt.2 hboth.1, hblank.2 hboth.2⟩
          rw [if_neg hgap, List.filter_cons_of_pos (by simpa using hshown), linesAt,
            List.filterMap_cons_some hline]
          exact congrArg (line :: ·) (ih hbelow hnext)
      · have hstaysAt : ¬Stays document i := fun hstaysAt => hstays ((stays_iff h).2 hstaysAt)
        have hshown : ¬IsShown document i := fun hshown => hstaysAt hshown.1
        rw [if_neg hstays, List.filter_cons_of_neg (by simpa using hshown)]
        exact ih hbelow (hblank.trans (followsBlank_succ_of_not_stays hstaysAt).symm)

theorem pruneLines_eq (document : List Line) :
    pruneLines document = linesAt document (shownPlaces document) := by
  have hstart : false = true ↔ FollowsBlank document 0 :=
    ⟨fun h => (Bool.false_ne_true h).elim, fun h => (not_followsBlank_zero h).elim⟩
  rw [pruneLines, shownPlaces, List.range_eq_range']
  exact (linesAt_filter_range' List.drop_zero hstart).symm

theorem mem_linesAt {places : List Nat} :
    line ∈ linesAt document places ↔ ∃ i ∈ places, document[i]? = some line :=
  List.mem_filterMap

theorem closeGaps_sublist (afterBlank : Bool) (lines : List Line) :
    (closeGaps afterBlank lines).Sublist lines := by
  induction lines generalizing afterBlank with
  | nil => exact .slnil
  | cons line below ih =>
      rw [closeGaps]
      split
      · exact (ih _).cons _
      · exact (ih _).cons_cons _

theorem liveLines_sublist (lines : List Line) : (liveLines lines).Sublist lines := by
  induction lines with
  | nil => exact .slnil
  | cons line below ih =>
      rw [liveLines]
      split
      · exact ih.cons_cons _
      · exact ih.cons _

theorem pruneLines_sublist (document : List Line) : (pruneLines document).Sublist document :=
  (closeGaps_sublist _ _).trans (liveLines_sublist _)

/-- No gap is wider than one line, also not together with a blank line before it. -/
theorem isChain_closeGaps (afterBlank : Bool) (lines : List Line) :
    (closeGaps afterBlank lines).IsChain (fun line next => ¬(isBlankLine line ∧ isBlankLine next)) ∧
      ∀ line ∈ (closeGaps afterBlank lines).head?, ¬(isBlankLine line ∧ afterBlank) := by
  induction lines generalizing afterBlank with
  | nil => exact ⟨.nil, by simp [closeGaps]⟩
  | cons line below ih =>
      rw [closeGaps]
      by_cases hgap : (isBlankLine line && afterBlank) = true
      · rw [if_pos hgap]
        obtain ⟨-, rfl⟩ := Bool.and_eq_true_iff.1 hgap
        exact ih true
      · rw [if_neg hgap]
        obtain ⟨hchain, hhead⟩ := ih (isBlankLine line)
        constructor
        · refine List.isChain_cons.2 ⟨fun next hnext hboth => ?_, hchain⟩
          exact hhead next hnext hboth.symm
        · intro first hfirst
          cases hfirst
          simpa using hgap

/-- The lines of a pruned text, unless nothing is left. -/
theorem splitOn_prune {text : String} (h : pruneLines (Text.splitOn '\n' text.toList) ≠ []) :
    Text.splitOn '\n' (prune text).toList = pruneLines (Text.splitOn '\n' text.toList) := by
  rw [prune, String.toList_ofList]
  apply Text.splitOn_joinWith h
  intro line hline
  exact Text.not_mem_of_mem_splitOn ((pruneLines_sublist _).subset hline)

/-- **Pruning, said of places.** The places that are shown are shown in their order and unchanged;
none of these lines lacks a value, and no two blank ones stand together. -/
theorem exists_shown_prune (text : String) :
    let document := Text.splitOn '\n' text.toList
    ∃ places : List Nat, places.Pairwise (· < ·) ∧ (∀ i, i ∈ places ↔ IsShown document i) ∧
      prune text = String.ofList (Text.joinWith ['\n'] (linesAt document places)) ∧
      (linesAt document places).Sublist document ∧
      (∀ line ∈ linesAt document places, ¬LacksValue line) ∧
      (linesAt document places).IsChain
        (fun line next => ¬(Text.trim line = [] ∧ Text.trim next = [])) ∧
      if places = [] then prune text = ""
      else Text.splitOn '\n' (prune text).toList = linesAt document places := by
  intro document
  have hlines := pruneLines_eq document
  refine ⟨shownPlaces document, pairwise_shownPlaces document, fun i => mem_shownPlaces, ?_, ?_, ?_,
    ?_, ?_⟩
  · rw [← hlines]
    rfl
  · rw [← hlines]
    exact pruneLines_sublist document
  · intro line hline
    obtain ⟨i, hi, hfound⟩ := mem_linesAt.1 hline
    obtain ⟨found, hat, hvalue, -⟩ := (mem_shownPlaces.1 hi).1
    cases hfound.symm.trans hat
    exact hvalue
  · rw [← hlines, pruneLines]
    simpa only [isBlankLine_iff] using (isChain_closeGaps false (liveLines document)).1
  · by_cases hempty : shownPlaces document = []
    · rw [if_pos hempty, prune, hlines, hempty]
      rfl
    · have hne : pruneLines document ≠ [] := by
        obtain ⟨i, hi⟩ := List.exists_mem_of_ne_nil _ hempty
        obtain ⟨line, hline, -⟩ := (mem_shownPlaces.1 hi).1
        rw [hlines]
        exact List.ne_nil_of_mem (mem_linesAt.2 ⟨i, hi, hline⟩)
      rw [if_neg hempty, ← hlines]
      exact splitOn_prune hne

end Prune

end PromptSheet
