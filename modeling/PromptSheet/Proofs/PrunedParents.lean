import PromptSheet.Proofs.PrunedLines

/-!
# Fields and their parents in a pruned document

A field that has a value is taken for a header as soon as the line below it is deeper, and then goes
with the lines that belong to it. A line that goes for its own sake is not asked for what stands below
it. Apart from this a field stays, the line that it belongs to stays with it, since the field is a
value below that line, and no line can come between the two.
-/

namespace PromptSheet.Prune

variable {document : List Line} {line above : Line} {key value : List Char} {places : List Nat}
  {a b i p q : Nat}

/-- The nearest earlier line that is neither blank nor a comment and is less indented. -/
def IsParent (document : List Line) (i p : Nat) : Prop :=
  ∃ line ∈ document[i]?,
    (p < i ∧ ∃ above ∈ document[p]?, IsContent above ∧ indent above < indent line) ∧
      ∀ k, p < k → k < i → ∀ between ∈ document[k]?, IsContent between →
        indent line ≤ indent between

/-- The quotes of an empty value end a field only if its value ends like a field without one. -/
theorem suffix_field_iff {quote : Char} (hquote : quote ≠ ' ') (hvalue : value ≠ [])
    (hquotes : value ≠ [quote, quote]) :
    [':', ' ', quote, quote] <:+ key ++ [':', ' '] ++ value ↔ [':', ' ', quote, quote] <:+ value := by
  constructor
  · rintro ⟨front, hfront⟩
    rcases List.append_eq_append_iff.1 hfront with ⟨rest, hkey, hrest⟩ | ⟨rest, -, hrest⟩
    · -- The value would begin inside of the four characters, right after the blank or not at all.
      have hlast : ∀ c ∈ rest.getLast?, c = ' ' := by
        intro c hc
        have hend : (front ++ rest).getLast? = some c := by
          rw [List.getLast?_append, hc]
          rfl
        rw [← hkey] at hend
        simpa using hend.symm
      match rest, hrest with
      | [], hrest => exact ⟨[], hrest⟩
      | [_], hrest =>
          obtain ⟨rfl, -⟩ := List.cons.inj hrest
          exact absurd (hlast ':' rfl) (by decide)
      | [_, _], hrest =>
          simp only [List.cons_append, List.nil_append, List.cons.injEq] at hrest
          exact absurd hrest.2.2.symm hquotes
      | [_, _, c], hrest =>
          simp only [List.cons_append, List.nil_append, List.cons.injEq] at hrest
          exact absurd (hrest.2.2.1.trans (hlast c rfl)) hquote
      | _ :: _ :: _ :: _ :: more, hrest =>
          simp only [List.cons_append, List.cons.injEq] at hrest
          exact absurd (List.append_eq_nil_iff.1 hrest.2.2.2.2.symm).2 hvalue
    · exact ⟨rest, hrest.symm⟩
  · intro h
    exact h.trans (List.suffix_append _ _)

/-- A line of the form `key: value`, with a value that is not empty. -/
structure IsField (line : Line) (value : List Char) : Prop where
  isContent : IsContent line
  exists_key : ∃ key, Text.trim line = key ++ [':', ' '] ++ value
  given : value ≠ []
  notDouble : value ≠ ['"', '"']
  notSingle : value ≠ ['\'', '\'']

theorem IsField.lacksValue_iff (h : IsField line value) : LacksValue line ↔ EndsEmpty value := by
  obtain ⟨key, hkey⟩ := h.exists_key
  rw [LacksValue, EndsEmpty, EndsEmpty, hkey, suffix_field_iff (by decide) h.given h.notDouble,
    suffix_field_iff (by decide) h.given h.notSingle]

theorem isShown_iff_stays (hline : document[i]? = some line) (hcontent : IsContent line) :
    IsShown document i ↔ Stays document i := by
  have hblank : ¬IsBlankAt document i := by
    rintro ⟨found, hfound, hblank⟩
    cases hline.symm.trans hfound
    exact hcontent.1 hblank
  rw [IsShown]
  simp [hblank]

/-- A field is a header only for the sake of the line below it. -/
theorem IsField.isShown_iff (h : IsField line value) (hline : document[i]? = some line) :
    IsShown document i ↔ ¬EndsEmpty value ∧
      ((∃ next ∈ document[i + 1]?, IsContent next ∧ indent line < indent next) →
        HasValueBelow document i (indent line)) := by
  have hcolon : [':', ' '] <:+: Text.trim line := by
    obtain ⟨key, hkey⟩ := h.exists_key
    exact ⟨key, value, hkey.symm⟩
  have hheader : IsHeaderAt document i ↔
      ∃ next ∈ document[i + 1]?, IsContent next ∧ indent line < indent next := by
    rw [IsHeaderAt, hline]
    simp [h.isContent, hcolon]
  rw [isShown_iff_stays hline h.isContent, Stays, hline, hheader, ← h.lacksValue_iff]
  simp [imp_iff_not_or]

theorem IsParent.unique (hp : IsParent document i p) (hq : IsParent document i q) : p = q := by
  obtain ⟨line, hline, ⟨hpi, above, habove, hcontent, hless⟩, hbetween⟩ := hp
  obtain ⟨line', hline', ⟨hqi, above', habove', hcontent', hless'⟩, hbetween'⟩ := hq
  cases hline.symm.trans hline'
  by_contra hne
  rcases Nat.lt_or_gt_of_ne hne with hlt | hlt
  · have := hbetween q hlt hqi above' habove' hcontent'
    omega
  · have := hbetween' p hlt hpi above habove hcontent
    omega

/-- The nearest of the less indented lines. -/
theorem exists_isParent (hline : document[i]? = some line) (habove : document[q]? = some above)
    (hqi : q < i) (hcontent : IsContent above) (hless : indent above < indent line) :
    ∃ p, q ≤ p ∧ IsParent document i p := by
  induction hn : i - q using Nat.strong_induction_on generalizing q above with
  | _ n ih =>
      by_cases hnearer : ∃ k, q < k ∧ k < i ∧ ∃ between ∈ document[k]?,
          IsContent between ∧ indent between < indent line
      · obtain ⟨k, hqk, hki, between, hbetween, hcontent', hless'⟩ := hnearer
        obtain ⟨p, hkp, hp⟩ := ih (i - k) (by omega) hbetween hki hcontent' hless' rfl
        exact ⟨p, by omega, hp⟩
      · refine ⟨q, Nat.le_refl q, line, hline, ⟨hqi, above, habove, hcontent, hless⟩, ?_⟩
        intro k hqk hki between hbetween hcontent'
        by_contra hdeeper
        exact hnearer ⟨k, hqk, hki, between, hbetween, hcontent', by omega⟩

/-- Below its parent a line with a value is reached over deeper lines only. -/
theorem IsParent.hasValueBelow (h : IsParent document i p) (hline : document[i]? = some line)
    (hvalued : IsValued line) (habove : document[p]? = some above) :
    HasValueBelow document p (indent above) := by
  obtain ⟨found, hfound, ⟨hpi, other, hother, -, hless⟩, hbetween⟩ := h
  cases hline.symm.trans hfound
  cases habove.symm.trans hother
  refine ⟨i, hpi, ⟨line, hline, hvalued⟩, fun k hpk hki between hk hcontent => ?_⟩
  by_cases hik : k = i
  · subst hik
    cases hline.symm.trans hk
    exact hless
  · have := hbetween k hpk (by omega) between hk hcontent
    omega

theorem IsParent.isShown_iff (h : IsParent document i p) (hline : document[i]? = some line)
    (hvalued : IsValued line) (habove : document[p]? = some above) :
    IsShown document p ↔ ¬LacksValue above := by
  have hbelow := h.hasValueBelow hline hvalued habove
  obtain ⟨-, -, ⟨-, other, hother, hcontent, -⟩, -⟩ := h
  cases habove.symm.trans hother
  rw [isShown_iff_stays habove hcontent, Stays, habove]
  simp [hbelow]

theorem getElem?_linesAt (hplaces : ∀ i ∈ places, i < document.length) (a : Nat) :
    (linesAt document places)[a]? = places[a]?.bind fun i => document[i]? := by
  induction places generalizing a with
  | nil => rfl
  | cons i places ih =>
      obtain ⟨hi, hplaces⟩ := List.forall_mem_cons.1 hplaces
      rw [linesAt, List.filterMap_cons_some (List.getElem?_eq_getElem hi)]
      cases a with
      | zero => simp [List.getElem?_eq_getElem hi]
      | succ a => exact ih hplaces a

theorem lt_iff_of_getElem? (hplaces : places.Pairwise (· < ·)) (ha : places[a]? = some i)
    (hb : places[b]? = some p) : b < a ↔ p < i := by
  obtain ⟨hblt, rfl⟩ := List.getElem?_eq_some_iff.1 hb
  obtain ⟨halt, rfl⟩ := List.getElem?_eq_some_iff.1 ha
  have hmono := List.pairwise_iff_getElem.1 hplaces
  constructor
  · exact hmono b a hblt halt
  · intro hlt
    by_contra hge
    rcases Nat.lt_or_eq_of_le (Nat.not_lt.1 hge) with hab | rfl
    · have := hmono a b halt hblt hab
      omega
    · omega

/-- Lines that were left out do not change what a line belongs to, as long as its own parent was not
left out. -/
theorem isParent_linesAt_iff (hordered : places.Pairwise (· < ·))
    (hplaces : ∀ i ∈ places, i < document.length) (ha : places[a]? = some i)
    (hparent : ∀ p, IsParent document i p → p ∈ places) :
    IsParent (linesAt document places) a b ↔ ∃ p, places[b]? = some p ∧ IsParent document i p := by
  have hat : ∀ {c k : Nat}, places[c]? = some k → (linesAt document places)[c]? = document[k]? := by
    intro c k hc
    rw [getElem?_linesAt hplaces, hc]
    rfl
  have hplace : ∀ {c : Nat} {line : Line}, (linesAt document places)[c]? = some line →
      ∃ k, places[c]? = some k ∧ document[k]? = some line := by
    intro c line hc
    rw [getElem?_linesAt hplaces] at hc
    exact Option.bind_eq_some_iff.1 hc
  constructor
  · rintro ⟨line, hline, ⟨hba, above, habove, hcontent, hless⟩, hbetween⟩
    obtain ⟨q, hq, hqabove⟩ := hplace habove
    rw [Option.mem_def, hat ha] at hline
    obtain ⟨p, hqp, hp⟩ := exists_isParent hline hqabove ((lt_iff_of_getElem? hordered ha hq).1 hba)
      hcontent hless
    refine ⟨q, hq, ?_⟩
    by_cases hqp' : q = p
    · exact hqp' ▸ hp
    · obtain ⟨c, hc⟩ := List.mem_iff_getElem?.1 (hparent p hp)
      obtain ⟨line', hline', ⟨hpi, nearer, hnearer, hcontent', hless'⟩, -⟩ := hp
      cases hline.symm.trans hline'
      have hbc := (lt_iff_of_getElem? hordered hc hq).2 (by omega)
      have hca := (lt_iff_of_getElem? hordered ha hc).2 hpi
      have := hbetween c hbc hca nearer ((hat hc).trans hnearer) hcontent'
      omega
  · rintro ⟨p, hb, line, hline, ⟨hpi, above, habove, hcontent, hless⟩, hbetween⟩
    refine ⟨line, (hat ha).trans hline, ⟨(lt_iff_of_getElem? hordered ha hb).2 hpi, above,
      (hat hb).trans habove, hcontent, hless⟩, fun c hbc hca between hc hcontent' => ?_⟩
    obtain ⟨k, hk, hkbetween⟩ := hplace hc
    exact hbetween k ((lt_iff_of_getElem? hordered hk hb).1 hbc)
      ((lt_iff_of_getElem? hordered ha hk).1 hca) between hkbetween hcontent'

/-- **What becomes of a field and its parent.** A field is left out only if its value ends like an
empty one, or if the line right below is deeper and no value belongs to it. Its parent is left out
only for its own sake, and a field whose parent is shown has the same parent as before. -/
theorem exists_places_prune_field (text : String) :
    let document := Text.splitOn '\n' text.toList
    ∃ places : List Nat, places.Pairwise (· < ·) ∧
      prune text = String.ofList (Text.joinWith ['\n'] (linesAt document places)) ∧
      ∀ i line value, document[i]? = some line → IsField line value →
        (i ∈ places ↔ ¬EndsEmpty value ∧
          ((∃ next ∈ document[i + 1]?, IsContent next ∧ indent line < indent next) →
            HasValueBelow document i (indent line))) ∧
        ∀ a, places[a]? = some i →
          (∀ p above, IsParent document i p → document[p]? = some above →
            (p ∈ places ↔ ¬LacksValue above)) ∧
          ((∀ p, IsParent document i p → p ∈ places) →
            ∀ b, IsParent (linesAt document places) a b ↔
              ∃ p, places[b]? = some p ∧ IsParent document i p) := by
  intro document
  have hordered := pairwise_shownPlaces document
  refine ⟨shownPlaces document, hordered, ?_, ?_⟩
  · rw [← pruneLines_eq]
    rfl
  · intro i line value hline hfield
    refine ⟨mem_shownPlaces.trans (hfield.isShown_iff hline), fun a ha => ⟨?_, ?_⟩⟩
    · intro p above hparent habove
      have hshown : IsShown document i := mem_shownPlaces.1 (List.mem_of_getElem? ha)
      have hends : ¬EndsEmpty value := ((hfield.isShown_iff hline).1 hshown).1
      have hvalued : IsValued line := ⟨hfield.isContent, fun h => hends (hfield.lacksValue_iff.1 h)⟩
      exact mem_shownPlaces.trans (hparent.isShown_iff hline hvalued habove)
    · intro hparent b
      refine isParent_linesAt_iff hordered (fun k hk => ?_) ha hparent
      exact (mem_shownPlaces.1 hk).1.lt_length

def fieldsSource : String :=
  "top:\n  gone: \"\"\n\n  kept: v\n    none: ''\n    some: w"

theorem exists_places_prune_field_fieldsSource :
    let document := Text.splitOn '\n' fieldsSource.toList
    document[3]? = some "  kept: v".toList ∧ IsField "  kept: v".toList ['v'] ∧
      IsParent document 3 0 ∧
      ∃ places : List Nat,
        prune fieldsSource = String.ofList (Text.joinWith ['\n'] (linesAt document places)) ∧
          0 ∈ places ∧
          ∃ a, places[a]? = some 3 ∧
            ∀ b, IsParent (linesAt document places) a b ↔
              ∃ p, places[b]? = some p ∧ IsParent document 3 p := by
  intro document
  have hline : document[3]? = some "  kept: v".toList := by decide
  have hfield : IsField "  kept: v".toList ['v'] :=
    ⟨by decide, ⟨"kept".toList, by decide⟩, by decide, by decide, by decide⟩
  have hparent : IsParent document 3 0 := by
    refine ⟨_, hline, ⟨by decide, "top:".toList, by decide, by decide, by decide⟩, ?_⟩
    intro k hk hk3 between hbetween hcontent
    obtain rfl | rfl : k = 1 ∨ k = 2 := by omega
    · obtain rfl := Option.some.inj (hbetween : some "  gone: \"\"".toList = some between)
      decide
    · obtain rfl := Option.some.inj (hbetween : some [] = some between)
      exact absurd hcontent (by decide)
  have hvalue : HasValueBelow document 3 (indent "  kept: v".toList) := by
    refine ⟨5, by decide, ⟨"    some: w".toList, by decide, by decide⟩, ?_⟩
    intro k hk hk5 between hbetween hcontent
    obtain rfl | rfl : k = 4 ∨ k = 5 := by omega
    · obtain rfl := Option.some.inj (hbetween : some "    none: ''".toList = some between)
      decide
    · obtain rfl := Option.some.inj (hbetween : some "    some: w".toList = some between)
      decide
  obtain ⟨places, -, hprune, hfields⟩ := exists_places_prune_field fieldsSource
  obtain ⟨hshown, hplace⟩ := hfields 3 _ _ hline hfield
  obtain ⟨a, ha⟩ := List.mem_iff_getElem?.1 (hshown.2 ⟨by decide, fun _ => hvalue⟩)
  obtain ⟨hkept, hsame⟩ := hplace a ha
  have hmem : 0 ∈ places := (hkept 0 "top:".toList hparent (by decide)).2 (by decide)
  refine ⟨hline, hfield, hparent, places, hprune, hmem, a, ha, hsame ?_⟩
  intro p hp
  exact hp.unique hparent ▸ hmem

/-- Every field is shown, and so is its parent. -/
def KeepsFields (text : String) : Prop :=
  let document := Text.splitOn '\n' text.toList
  ∃ places : List Nat, places.Pairwise (· < ·) ∧
    prune text = String.ofList (Text.joinWith ['\n'] (linesAt document places)) ∧
    ∀ i line value, document[i]? = some line → IsField line value →
      i ∈ places ∧ ∀ p, IsParent document i p → p ∈ places

/-- Whatever stands in a field or its parent stands in the pruned text. -/
theorem KeepsFields.mem_prune {text : String} {c : Char} (h : KeepsFields text)
    (hline : (Text.splitOn '\n' text.toList)[i]? = some line) (hfield : IsField line value) :
    (c ∈ line → c ∈ (prune text).toList) ∧
      ∀ p above, IsParent (Text.splitOn '\n' text.toList) i p →
        (Text.splitOn '\n' text.toList)[p]? = some above → c ∈ above →
          c ∈ (prune text).toList := by
  obtain ⟨places, -, hprune, hfields⟩ := h
  obtain ⟨hi, hparents⟩ := hfields i line value hline hfield
  rw [hprune, String.toList_ofList]
  constructor
  · intro hc
    exact Text.mem_joinWith hc (mem_linesAt.2 ⟨i, hi, hline⟩)
  · intro p above hparent habove hc
    exact Text.mem_joinWith hc (mem_linesAt.2 ⟨p, hparents p hparent, habove⟩)

/-- A field over a deeper line without a value, a field whose value ends like an empty one, and a
field below a line without a value. -/
theorem not_all_keepsFields :
    ¬KeepsFields "a: x\n  b: \"\"" ∧ ¬KeepsFields "a: b: \"\"" ∧
      ¬KeepsFields "p: \"\"\n  a: 1" := by
  refine ⟨fun h => ?_, fun h => ?_, fun h => ?_⟩
  · have hfield : IsField "a: x".toList ['x'] :=
      ⟨by decide, ⟨['a'], by decide⟩, by decide, by decide, by decide⟩
    have hline : (Text.splitOn '\n' "a: x\n  b: \"\"".toList)[0]? = some "a: x".toList := by decide
    exact absurd ((h.mem_prune hline hfield).1 (by decide : 'a' ∈ "a: x".toList)) (by decide)
  · have hfield : IsField "a: b: \"\"".toList "b: \"\"".toList :=
      ⟨by decide, ⟨['a'], by decide⟩, by decide, by decide, by decide⟩
    have hline : (Text.splitOn '\n' "a: b: \"\"".toList)[0]? = some "a: b: \"\"".toList := by decide
    exact absurd ((h.mem_prune hline hfield).1 (by decide : 'a' ∈ "a: b: \"\"".toList)) (by decide)
  · have hfield : IsField "  a: 1".toList ['1'] :=
      ⟨by decide, ⟨['a'], by decide⟩, by decide, by decide, by decide⟩
    have hline : (Text.splitOn '\n' "p: \"\"\n  a: 1".toList)[1]? = some "  a: 1".toList := by decide
    have habove : (Text.splitOn '\n' "p: \"\"\n  a: 1".toList)[0]? = some "p: \"\"".toList := by
      decide
    have hparent : IsParent (Text.splitOn '\n' "p: \"\"\n  a: 1".toList) 1 0 := by
      refine ⟨_, hline, ⟨by decide, _, habove, by decide, by decide⟩, ?_⟩
      intro k hk hk1
      omega
    have hkept := (h.mem_prune hline hfield).2 0 _ hparent habove
      (by decide : 'p' ∈ "p: \"\"".toList)
    exact absurd hkept (by decide)

end PromptSheet.Prune
