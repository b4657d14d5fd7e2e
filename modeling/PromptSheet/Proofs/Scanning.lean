import Mathlib.Data.List.Infix
import PromptSheet.Template.Print
import PromptSheet.Template.Token

/-!
# Scanning written texts and tags

What the scanner makes of a text and of a tag that are written out with something after them. A text
gives its token only when a tag or the end of the template follows it, so a place from which the
scanner may start anew is one where two open braces or nothing at all come next.
-/

namespace PromptSheet.Template

def Scan.after (tokens : List Token) (scan : Scan) : Scan :=
  { scan with tokens := tokens ++ scan.tokens }

@[simp]
theorem Scan.after_nil (scan : Scan) : scan.after [] = scan := rfl

theorem Scan.after_after (first second : List Token) (scan : Scan) :
    (scan.after second).after first = scan.after (first ++ second) := by
  rw [after, after, after, List.append_assoc]

theorem scanFrom_cons (mode : Mode) (p : Position) (c : Char) (rest : List Char) :
    scanFrom mode p (c :: rest) =
      (scanFrom (mode.step p c).2 (p.advance c) rest).after (mode.step p c).1 := rfl

def Position.advanceAll (p : Position) (s : List Char) : Position :=
  s.foldl Position.advance p

def IsBrace (c : Char) : Prop :=
  c = '{' ∨ c = '}'

instance (c : Char) : Decidable (IsBrace c) :=
  inferInstanceAs (Decidable (_ ∨ _))

def IsBraceless (s : List Char) : Prop :=
  ∀ c ∈ s, ¬IsBrace c

instance (s : List Char) : Decidable (IsBraceless s) :=
  List.decidableBAll _ s

theorem isBraceless_cons {c : Char} {s : List Char} :
    IsBraceless (c :: s) ↔ ¬IsBrace c ∧ IsBraceless s :=
  List.forall_mem_cons

theorem isBraceless_append {first second : List Char} :
    IsBraceless (first ++ second) ↔ IsBraceless first ∧ IsBraceless second :=
  List.forall_mem_append

def EndsText (rest : List Char) : Prop :=
  rest = [] ∨ ∃ tag, rest = '{' :: '{' :: tag

/-- What stands between two tags: it holds no two open braces and cannot make any with a tag. -/
structure IsLiteral (s : List Char) : Prop where
  nonempty : s ≠ []
  noOpening : ¬['{', '{'] <:+: s
  last : s.getLast? ≠ some '{'

instance (s : List Char) : Decidable (IsLiteral s) :=
  decidable_of_iff (s ≠ [] ∧ ¬['{', '{'] <:+: s ∧ s.getLast? ≠ some '{')
    ⟨fun h => ⟨h.1, h.2.1, h.2.2⟩, fun h => ⟨h.nonempty, h.noOpening, h.last⟩⟩

section Texts

variable {seen content rest : List Char} (p : Position)

theorem step_text_of_ne {c : Char} (h : c = '{' → seen.head? ≠ some '{') :
    (Mode.text seen).step p c = ([], .text (c :: seen)) := by
  simp only [Mode.step]
  split
  · next before => exact absurd rfl (h rfl)
  · rfl

theorem scanFrom_text_append (hopening : ¬['{', '{'] <:+: seen.reverse ++ content) :
    scanFrom (.text seen) p (content ++ rest) =
      scanFrom (.text (content.reverse ++ seen)) (p.advanceAll content) rest := by
  induction content generalizing seen p with
  | nil => rfl
  | cons c content ih =>
      have hstep : c = '{' → seen.head? ≠ some '{' := by
        rintro rfl hseen
        obtain ⟨before, rfl⟩ := List.head?_eq_some_iff.1 hseen
        exact hopening ⟨before.reverse, content, by simp⟩
      rw [List.cons_append, scanFrom_cons, step_text_of_ne p hstep, Scan.after_nil,
        ih _ (by simpa using hopening)]
      simp [Position.advanceAll]

theorem scanFrom_text_of_endsText (hlast : seen.head? ≠ some '{') (hrest : EndsText rest) :
    scanFrom (.text seen) p rest = (scanFrom (.text []) p rest).after (Token.ofSeen seen) := by
  obtain rfl | ⟨tag, rfl⟩ := hrest
  · simp [scanFrom, Mode.finish, Scan.after, Token.ofSeen]
  · rw [scanFrom_cons, step_text_of_ne p (fun _ => hlast), scanFrom_cons,
      scanFrom_cons (.text []), step_text_of_ne p (by simp), scanFrom_cons]
    simp [Mode.step, Token.ofSeen, Scan.after]

theorem scanFrom_literal (hcontent : IsLiteral content) (hrest : EndsText rest) :
    scanFrom (.text []) p (content ++ rest) =
      (scanFrom (.text []) (p.advanceAll content) rest).after [.text (String.ofList content)] := by
  have hseen : (content.reverse ++ []).head? ≠ some '{' := by
    simpa using hcontent.last
  have htoken : Token.ofSeen (content.reverse ++ []) = [.text (String.ofList content)] := by
    simp [Token.ofSeen, hcontent.nonempty]
  rw [scanFrom_text_append p (by simpa using hcontent.noOpening),
    scanFrom_text_of_endsText _ hseen hrest, htoken]

end Texts

/-! ### Tags

A tag is read alike with two braces and with three, but for what its inside becomes.
-/

def opener (triple : Bool) : List Char :=
  if triple then ['{', '{', '{'] else ['{', '{']

def closer (triple : Bool) : List Char :=
  if triple then ['}', '}', '}'] else ['}', '}']

/-- The closing braces after this inside are the first ones, and the tag has as many open braces as
it is said to have. -/
structure IsInside (triple : Bool) (inside : List Char) : Prop where
  noCloser : ¬closer triple <:+: inside ++ (closer triple).dropLast
  notTriple : triple = false → inside.head? ≠ some '{'

structure IsUnclosed (triple : Bool) (rest : List Char) : Prop where
  noCloser : ¬closer triple <:+: rest
  notTriple : triple = false → rest.head? ≠ some '{'

def Mode.inside (triple : Bool) (start : Position) (seen : List Char) : Mode :=
  if triple then .rawTag start seen else .tag start seen

def Tag.ofInside (triple : Bool) (line : Nat) (inside : List Char) : Except ParseError Tag :=
  if triple then .ok (.rawSlot (String.ofList (Text.trim inside))) else ofContent line inside

section Tags

variable {triple : Bool} {seen content inside rest : List Char} (p start : Position)

theorem advanceAll_append (first second : List Char) :
    p.advanceAll (first ++ second) = (p.advanceAll first).advanceAll second :=
  List.foldl_append

theorem scanFrom_opening (rest : List Char) :
    scanFrom (.text []) p ('{' :: '{' :: rest) =
      scanFrom (.tag p []) (p.advanceAll ['{', '{']) rest := by
  rw [scanFrom_cons, step_text_of_ne p (by simp), scanFrom_cons]
  rfl

theorem scanFrom_opener (triple : Bool) (rest : List Char) :
    scanFrom (.text []) p (opener triple ++ rest) =
      scanFrom (.inside triple p []) (p.advanceAll (opener triple)) rest := by
  cases triple with
  | false => exact scanFrom_opening p rest
  | true =>
      show scanFrom (.text []) p ('{' :: '{' :: '{' :: rest) = _
      rw [scanFrom_opening]
      rfl

theorem step_inside {c : Char} (hcloser : ¬closer triple <:+: (c :: seen).reverse)
    (hopener : triple = false → seen = [] → c ≠ '{') :
    (Mode.inside triple start seen).step p c = ([], .inside triple start (c :: seen)) := by
  cases triple with
  | false =>
      simp only [Mode.inside, Bool.false_eq_true, if_false, Mode.step]
      split
      · exact absurd rfl (hopener rfl rfl)
      · next before => exact absurd ⟨before.reverse, [], by simp [closer]⟩ hcloser
      · rfl
  | true =>
      simp only [Mode.inside, if_true, Mode.step]
      split
      · next before => exact absurd ⟨before.reverse, [], by simp [closer]⟩ hcloser
      · rfl

theorem scanFrom_inside_append (hcloser : ¬closer triple <:+: seen.reverse ++ content)
    (hopener : triple = false → seen = [] → content.head? ≠ some '{') :
    scanFrom (.inside triple start seen) p (content ++ rest) =
      scanFrom (.inside triple start (content.reverse ++ seen)) (p.advanceAll content) rest := by
  induction content generalizing seen p with
  | nil => rfl
  | cons c content ih =>
      have hstep : ¬closer triple <:+: (c :: seen).reverse := by
        intro hwithin
        exact hcloser (hwithin.trans ⟨[], content, by simp⟩)
      have hfirst : triple = false → seen = [] → c ≠ '{' := by
        rintro htriple hseen rfl
        exact hopener htriple hseen rfl
      rw [List.cons_append, scanFrom_cons, step_inside p start hstep hfirst, Scan.after_nil,
        ih _ (by simpa using hcloser) (by simp)]
      simp [Position.advanceAll]

theorem scanFrom_failed (e : ParseError) (rest : List Char) :
    scanFrom (.failed e) p rest = ⟨[], some e⟩ := by
  induction rest generalizing p with
  | nil => rfl
  | cons c rest ih =>
      rw [scanFrom_cons, Mode.step, ih]
      rfl

theorem IsInside.scanFrom (h : IsInside triple inside) (rest : List Char) :
    scanFrom (.text []) p (opener triple ++ (inside ++ (closer triple ++ rest))) =
      match Tag.ofInside triple p.line inside with
      | .ok found =>
        (Template.scanFrom (.text [])
          (p.advanceAll (opener triple ++ (inside ++ closer triple))) rest).after [.tag found p]
      | .error e => ⟨[], some e⟩ := by
  -- All but the last brace of the closer still belongs to what the scanner is inside of.
  have hsource : inside ++ (closer triple ++ rest) =
      (inside ++ (closer triple).dropLast) ++ '}' :: rest := by
    cases triple <;> simp [closer]
  have hopener : triple = false → ([] : List Char) = [] →
      (inside ++ (closer triple).dropLast).head? ≠ some '{' := by
    intro htriple _
    have := h.notTriple htriple
    cases inside <;> simp_all [closer]
  rw [scanFrom_opener, hsource, scanFrom_inside_append _ _ (by simpa using h.noCloser) hopener,
    scanFrom_cons]
  cases triple with
  | false =>
      simp only [Mode.inside, closer, Bool.false_eq_true, if_false, Tag.ofInside]
      cases hfound : Tag.ofContent p.line inside with
      | ok found => simp [Mode.step, hfound, Position.advanceAll, opener]
      | error e => simp [Mode.step, hfound, scanFrom_failed]
  | true => simp [Mode.step, Mode.inside, closer, opener, Position.advanceAll, Tag.ofInside]

theorem IsUnclosed.scanFrom (h : IsUnclosed triple rest) :
    scanFrom (.text []) p (opener triple ++ rest) = ⟨[], some (.unclosedTag triple p.line)⟩ := by
  have hscan : Template.scanFrom (.inside triple p []) (p.advanceAll (opener triple)) (rest ++ []) =
      Template.scanFrom (.inside triple p (rest.reverse ++ []))
        ((p.advanceAll (opener triple)).advanceAll rest) [] :=
    scanFrom_inside_append _ p (by simpa using h.noCloser) fun htriple _ => h.notTriple htriple
  rw [List.append_nil] at hscan
  rw [scanFrom_opener, hscan]
  cases triple <;> rfl

theorem isInside_of_isBraceless (triple : Bool) (h : IsBraceless content) :
    IsInside triple content := by
  refine ⟨fun hwithin => ?_, fun _ hhead => h _ (List.mem_of_mem_head? hhead) (.inl rfl)⟩
  -- The inside has no closing brace to add to those of the closer.
  have hnone : content.count '}' = 0 :=
    List.count_eq_zero.2 fun hmem => h _ hmem (.inr rfl)
  have hcount := hwithin.sublist.count_le '}'
  rw [List.count_append, hnone] at hcount
  revert hcount
  cases triple <;> decide

theorem scanFrom_braced {found : Tag} (hcontent : IsBraceless content)
    (hfound : Tag.ofContent p.line content = .ok found) :
    scanFrom (.text []) p (braced content ++ rest) =
      (scanFrom (.text []) (p.advanceAll (braced content)) rest).after [.tag found p] := by
  have hscan := (isInside_of_isBraceless false hcontent).scanFrom p rest
  have hinside : Tag.ofInside false p.line content = .ok found := hfound
  rw [hinside] at hscan
  simpa [braced, opener, closer] using hscan

theorem scanFrom_braced_raw (hcontent : IsBraceless content) :
    scanFrom (.text []) p (braced (['{'] ++ content ++ ['}']) ++ rest) =
      (scanFrom (.text []) (p.advanceAll (braced (['{'] ++ content ++ ['}']))) rest).after
        [.tag (.rawSlot (String.ofList (Text.trim content))) p] := by
  simpa [braced, opener, closer, Tag.ofInside] using
    (isInside_of_isBraceless true hcontent).scanFrom p rest

end Tags

end PromptSheet.Template
