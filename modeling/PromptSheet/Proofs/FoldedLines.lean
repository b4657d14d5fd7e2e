import PromptSheet.Proofs.QuotedScalars

/-!
# Descriptions folded line by line

A description is folded from its kept lines, and the lines of two texts with a newline between them
are those of the first and then those of the second. So folding goes line by line, and what it gives
is one line: no newline is left, blanks stand on neither side, and nothing at all is left of lines
that are all blank. Reading the folded text as a quoted scalar gives the kept lines back, a comma and
a space between them.
-/

namespace PromptSheet.Text

variable {s piece : List Char} {pieces more : List (List Char)} {c : Char}

theorem joinWith_append {sep : List Char} (h : pieces ≠ []) (hmore : more ≠ []) :
    joinWith sep (pieces ++ more) = joinWith sep pieces ++ sep ++ joinWith sep more := by
  rw [joinWith_eq_intercalate, joinWith_eq_intercalate, joinWith_eq_intercalate]
  induction pieces with
  | nil => exact absurd rfl h
  | cons piece pieces ih =>
      by_cases hpieces : pieces = []
      · subst hpieces
        rw [List.singleton_append, List.intercalate_cons_of_ne_nil hmore, List.intercalate_singleton]
      · have hboth : pieces ++ more ≠ [] := List.append_ne_nil_of_left_ne_nil hpieces more
        rw [List.cons_append, List.intercalate_cons_of_ne_nil hboth, ih hpieces,
          List.intercalate_cons_of_ne_nil hpieces]
        simp only [List.append_assoc]

theorem mem_of_mem_joinWith {sep : List Char} (h : c ∈ joinWith sep pieces) :
    c ∈ sep ∨ ∃ piece ∈ pieces, c ∈ piece := by
  fun_induction joinWith sep pieces with
  | case1 => cases h
  | case2 piece => exact .inr ⟨piece, List.mem_singleton_self piece, h⟩
  | case3 piece pieces _ ih =>
      rcases List.mem_append.1 h with h | h
      · rcases List.mem_append.1 h with h | h
        · exact .inr ⟨piece, List.mem_cons_self, h⟩
        · exact .inl h
      · obtain hsep | ⟨other, hother, hc⟩ := ih h
        · exact .inl hsep
        · exact .inr ⟨other, List.mem_cons_of_mem _ hother, hc⟩

theorem joinWith_ne_nil {sep : List Char} (h : pieces ≠ [])
    (hall : ∀ piece ∈ pieces, piece ≠ []) :
    joinWith sep pieces ≠ [] := by
  obtain ⟨piece, rest, rfl⟩ := List.exists_cons_of_ne_nil h
  obtain ⟨c, hc⟩ := List.exists_mem_of_ne_nil piece (hall piece List.mem_cons_self)
  exact List.ne_nil_of_mem (mem_joinWith hc List.mem_cons_self)

theorem isTrimmed_joinWith {sep : List Char}
    (hall : ∀ piece ∈ pieces, IsTrimmed piece ∧ piece ≠ []) :
    IsTrimmed (joinWith sep pieces) := by
  fun_induction joinWith sep pieces with
  | case1 => decide
  | case2 piece => exact (hall piece (List.mem_singleton_self piece)).1
  | case3 piece pieces hpieces ih =>
      obtain ⟨⟨hpiece, hne⟩, hrest⟩ := List.forall_mem_cons.1 hall
      refine isTrimmed_append ?_ (ih hrest).2 (by simp [hne]) ?_
      · rw [List.head?_append, Option.or_of_isSome (by simpa using hne)]
        exact hpiece.1
      · exact joinWith_ne_nil (fun h => hpieces h) fun piece hpiece => (hrest piece hpiece).2

theorem mem_of_mem_escapeChars (h : c ∈ escapeChars s) : c = '\\' ∨ c ∈ s := by
  induction s with
  | nil => cases h
  | cons d s ih =>
      rw [escapeChars] at h
      split at h
      · simp only [List.mem_cons] at h ⊢
        tauto
      · simp only [List.mem_cons] at h ⊢
        tauto

theorem escapeChars_eq_nil_iff : escapeChars s = [] ↔ s = [] :=
  escapeChars_injective.eq_iff' rfl

theorem IsTrimmed.escapeChars (h : IsTrimmed s) : IsTrimmed (escapeChars s) := by
  refine ⟨fun c hc => ?_, fun c hc => ?_⟩
  · cases s with
    | nil => cases hc
    | cons d s =>
        rw [Text.escapeChars] at hc
        split at hc
        · obtain rfl : '\\' = c := by simpa using hc
          decide
        · exact h.1 c hc
  · rcases List.eq_nil_or_concat s with rfl | ⟨front, d, rfl⟩
    · cases hc
    · -- The last character stays the last one, whether or not a backslash comes before it.
      refine h.2 c ?_
      rw [List.concat_eq_append, escapeChars_append, List.getLast?_append] at hc
      rw [List.concat_eq_append, List.getLast?_concat]
      have hlast : (Text.escapeChars [d]).getLast? = some d := by
        rw [Text.escapeChars]
        split <;> rfl
      rwa [hlast] at hc

theorem trim_dropReturn (line : List Char) : trim (dropReturn line) = trim line := by
  unfold dropReturn
  split
  · next rest hreturn =>
    obtain rfl : line = rest.reverse ++ ['\r'] := by
      rw [← List.reverse_reverse line, hreturn, List.reverse_cons]
    exact (trim_concat_blank (by decide) rest.reverse).symm
  · rfl

/-- What ends a line is blank, so it goes when the line is trimmed. -/
theorem keptLines_eq (s : List Char) :
    keptLines s = ((splitOn '\n' s).map trim).filter fun line => !line.isEmpty := by
  rw [keptLines, lines]
  generalize splitOn '\n' s = pieces
  fun_induction linesOfPieces pieces with
  | case1 => rfl
  | case2 last hempty =>
      rw [List.isEmpty_iff.1 hempty]
      rfl
  | case3 last hempty => rfl
  | case4 piece pieces _ ih =>
      rw [List.map_cons, List.map_cons, trim_dropReturn, List.filter_cons, List.filter_cons, ih]

theorem keptLines_append_newline (first second : String) :
    keptLines (first ++ "\n" ++ second).toList =
      keptLines first.toList ++ keptLines second.toList := by
  rw [keptLines_eq, splitOn_toList_append '\n' rfl, List.map_append, List.filter_append,
    ← keptLines_eq, ← keptLines_eq]

theorem isTrimmed_of_mem_keptLines (h : piece ∈ keptLines s) : IsTrimmed piece ∧ piece ≠ [] := by
  obtain ⟨hpiece, hne⟩ := List.mem_filter.1 h
  obtain ⟨line, _, rfl⟩ := List.mem_map.1 hpiece
  exact ⟨isTrimmed_trim line, by simpa using hne⟩

theorem newline_not_mem_of_mem_keptLines (h : piece ∈ keptLines s) : '\n' ∉ piece := by
  rw [keptLines_eq] at h
  obtain ⟨line, hline, rfl⟩ := List.mem_map.1 (List.mem_filter.1 h).1
  exact fun hmem => not_mem_of_mem_splitOn hline ((isInfix_trim line).subset hmem)

theorem keptLines_eq_nil_iff :
    keptLines s = [] ↔ ∀ line ∈ lines s, ∀ c ∈ line, isBlank c = true := by
  simp [keptLines, List.filter_eq_nil_iff, trim_eq_nil_iff]

theorem keptLines_eq_map_filter (s : List Char) :
    keptLines s = ((lines s).filter fun line => !line.all isBlank).map trim := by
  have hblank : ∀ line : List Char, (trim line).isEmpty = line.all isBlank := by
    intro line
    rw [Bool.eq_iff_iff, List.isEmpty_iff, trim_eq_nil_iff, List.all_eq_true]
  rw [keptLines, List.filter_map]
  simp [Function.comp_def, hblank]

/-- The kept lines side by side, before anything is escaped. -/
def joinedLines (s : String) : List Char :=
  joinWith [',', ' '] (keptLines s.toList)

theorem toList_fold (s : String) : (fold s).toList = escapeChars (joinedLines s) := by
  rw [fold, String.toList_ofList, joinedLines]

theorem fold_eq_empty_iff (s : String) : fold s = "" ↔ keptLines s.toList = [] := by
  rw [← String.toList_eq_nil_iff, toList_fold, escapeChars_eq_nil_iff]
  constructor
  · intro h
    by_contra hne
    exact joinWith_ne_nil hne (fun piece hpiece => (isTrimmed_of_mem_keptLines hpiece).2) h
  · intro h
    rw [joinedLines, h]
    rfl

theorem fold_append_newline (first second : String) :
    fold (first ++ "\n" ++ second) =
      if fold second = "" then fold first
      else if fold first = "" then fold second
      else fold first ++ ", " ++ fold second := by
  have hkept := keptLines_append_newline first second
  simp only [fold_eq_empty_iff]
  split
  · next hsecond => rw [fold, fold, hkept, hsecond, List.append_nil]
  · split
    · next hfirst => rw [fold, fold, hkept, hfirst, List.nil_append]
    · next hsecond hfirst =>
      apply String.toList_injective
      rw [String.toList_append, String.toList_append, toList_fold, toList_fold, toList_fold,
        joinedLines, hkept, joinWith_append hfirst hsecond, escapeChars_append, escapeChars_append]
      rfl

/-- **Folding follows the lines.** Texts with a newline between them are folded one by one, and a
comma and a space are set between what is left of them. A folded text is one trimmed line; it is
empty only if all the lines are blank, and what is read from it between quotes are the lines that are
not, trimmed. -/
theorem fold_lines :
    (∀ first second : String,
      fold (first ++ "\n" ++ second) =
        if fold second = "" then fold first
        else if fold first = "" then fold second
        else fold first ++ ", " ++ fold second) ∧
    ∀ s : String,
      '\n' ∉ (fold s).toList ∧ IsTrimmed (fold s).toList ∧
      (fold s = "" ↔ ∀ line ∈ lines s.toList, ∀ c ∈ line, isBlank c = true) ∧
      ∀ rest : String, readScalar? (fold s ++ "\"" ++ rest).toList =
        some (joinWith [',', ' '] (((lines s.toList).filter fun line => !line.all isBlank).map trim),
          rest.toList) := by
  refine ⟨fold_append_newline, fun s => ⟨?_, ?_, ?_, fun rest => ?_⟩⟩
  · rw [toList_fold]
    intro hmem
    have hjoined := (mem_of_mem_escapeChars hmem).resolve_left (by decide)
    rcases mem_of_mem_joinWith hjoined with hsep | ⟨piece, hpiece, hnewline⟩
    · revert hsep
      decide
    · exact newline_not_mem_of_mem_keptLines hpiece hnewline
  · rw [toList_fold]
    exact (isTrimmed_joinWith fun piece hpiece => isTrimmed_of_mem_keptLines hpiece).escapeChars
  · rw [fold_eq_empty_iff, keptLines_eq_nil_iff]
  · rw [String.toList_append, String.toList_append, toList_fold, List.append_assoc,
      ← keptLines_eq_map_filter]
    exact readScalar?_escapeChars (joinedLines s) rest.toList

example : fold " a\r\n\n\"b\"\n" = "a, \\\"b\\\"" := by
  decide

end PromptSheet.Text
