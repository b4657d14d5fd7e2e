import PromptSheet.Proofs.RenderingLaws

/-!
# Templates that a rendering reaches

A rendering goes down from a tree to the templates that it includes, and from them to the ones that
they include. Two things can end a way down: a text that is no template, which ends the whole
rendering, and the limit, which ends this way alone and is said in the log. So a rendering fails
exactly if one of its ways comes to a broken text within the limit, and where the log says nothing of
the limit, a larger one changes nothing.

Both are proved by induction on how deep inclusions may still nest, for all trees and stores, since
the tree of an included template is rendered in a store of its own.
-/

namespace PromptSheet.Template

/-- Inclusions lead from a tree by some names, each included by the one before, to a last text. -/
inductive Leads (source : String → Found) : List Node → List String → String → Prop where
  | last {nodes : List Node} {name text : String} (hname : name ∈ Node.inclusionsOf nodes)
      (htext : source name = .source text) : Leads source nodes [name] text
  | further {nodes inner : List Node} {name text final : String} {names : List String}
      (hname : name ∈ Node.inclusionsOf nodes) (htext : source name = .source text)
      (hparse : parse text = .ok inner) (hinner : Leads source inner names final) :
      Leads source nodes (name :: names) final

/-- The rendering of a tree in a store comes by these names to a last text: unlike in `Leads`, every
inclusion stands in a branch that is taken, and in a loop for an item that is there. -/
inductive Reaches (source : String → Found) :
    List Node → Store → List String → String → Prop where
  | last {nodes : List Node} {store inside : Store} {name text : String}
      {parameters : List (String × String)}
      (hpiece : .inclusion name parameters inside ∈ Node.piecesOf nodes store)
      (htext : source name = .source text) : Reaches source nodes store [name] text
  | further {nodes inner : List Node} {store inside : Store} {name text final : String}
      {parameters : List (String × String)} {names : List String}
      (hpiece : .inclusion name parameters inside ∈ Node.piecesOf nodes store)
      (htext : source name = .source text) (hparse : parse text = .ok inner)
      (hinner : Reaches source inner (Renderer.scope inside parameters) names final) :
      Reaches source nodes store (name :: names) final

section Reaches

variable {source : String → Found} {nodes : List Node} {store : Store} {names : List String}
  {final : String} {e : ParseError}

theorem Reaches.leads (h : Reaches source nodes store names final) :
    Leads source nodes names final := by
  induction h with
  | last hpiece htext => exact .last (Node.mem_inclusionsOf_of_mem_pieces _ _ hpiece) htext
  | further hpiece htext hparse _ ih =>
      exact .further (Node.mem_inclusionsOf_of_mem_pieces _ _ hpiece) htext hparse ih

namespace Renderer

variable {limit remaining : Nat}

theorem exists_reaches_of_renderWithin
    (h : (renderWithin limit source remaining nodes store).result = .error e) :
    ∃ names final, Reaches source nodes store names final ∧ names.length ≤ remaining ∧
      parse final = .error e := by
  induction remaining generalizing nodes store with
  | zero =>
      rw [renderWithin] at h
      obtain ⟨name, parameters, inside, -, hname⟩ := Node.exists_inclusion_of_error h
      cases hname
  | succ remaining ih =>
      rw [renderWithin] at h
      obtain ⟨name, parameters, inside, hpiece, hfault⟩ := Node.exists_inclusion_of_error h
      obtain ⟨-, hshown⟩ | ⟨-, hshown⟩ | ⟨text, cause, htext, hparse, hshown⟩ |
        ⟨text, inner, htext, hparse, hshown⟩ :=
        included_cases limit source remaining name parameters inside
      · rw [hshown] at hfault
        cases hfault
      · rw [hshown] at hfault
        cases hfault
      · -- The included text is the broken one, and the way to it ends here.
        rw [hshown] at hfault
        cases hfault
        exact ⟨[name], text, .last hpiece htext, Nat.le_add_left .., hparse⟩
      · rw [hshown] at hfault
        obtain ⟨names, final, hreaches, hlength, hfinal⟩ := ih hfault
        exact ⟨name :: names, final, .further hpiece htext hparse hreaches,
          Nat.succ_le_succ hlength, hfinal⟩

theorem exists_error_of_reaches (h : Reaches source nodes store names final)
    (hlength : names.length ≤ remaining) (hfinal : parse final = .error e) :
    ∃ e', (renderWithin limit source remaining nodes store).result = .error e' := by
  induction h generalizing remaining with
  | last hpiece htext =>
      obtain ⟨remaining, rfl⟩ := Nat.exists_eq_succ_of_ne_zero (Nat.ne_zero_of_lt hlength)
      rw [renderWithin]
      refine Node.exists_error_of_inclusion hpiece (e := e) ?_
      rw [included_succ, htext, Found.shown_broken hfinal]
      rfl
  | further hpiece htext hparse _ ih =>
      obtain ⟨remaining, rfl⟩ := Nat.exists_eq_succ_of_ne_zero (Nat.ne_zero_of_lt hlength)
      obtain ⟨e', he'⟩ := ih (Nat.le_of_succ_le_succ hlength) hfinal
      rw [renderWithin]
      refine Node.exists_error_of_inclusion hpiece (e := e') ?_
      rw [included_succ, htext, Found.shown_source hparse]
      exact he'

theorem leads_of_renderWithin
    (h : (renderWithin limit source remaining nodes store).result = .error e) :
    ∃ names final, Leads source nodes names final ∧ names.length ≤ remaining ∧
      parse final = .error e := by
  obtain ⟨names, final, hreaches, hlength, hfinal⟩ := exists_reaches_of_renderWithin h
  exact ⟨names, final, hreaches.leads, hlength, hfinal⟩

end Renderer

theorem Leads.exists_source (h : Leads source nodes names final) :
    ∃ name, source name = .source final := by
  induction h with
  | last _ htext => exact ⟨_, htext⟩
  | further _ _ _ _ ih => exact ih

end Reaches

namespace Renderer

theorem result_render_eq_ok_renderAlone (nodes : List Node) (store : Store) :
    (render {} nodes store).result = .ok (renderAlone nodes store) := by
  let nothing : Include := fun _ _ _ => Rendering.empty
  have hsilent : (render {} nodes store).IsSilent :=
    Rendering.isCongruence_isSilent.renderAll nothing nothing nodes
      (fun _ _ _ _ => Rendering.isSilent_ofText "") store
  obtain ⟨content, hcontent⟩ := hsilent
  rw [renderAlone, hcontent]
  rfl

/-- **A rendering fails for a broken template that it reached**, and for nothing else. So it cannot
fail where all texts are templates, and a tree that is rendered without a source always leaves its
text. -/
theorem render_fails_reached (source : String → Found) (limit : Nat) (nodes : List Node)
    (store : Store) :
    let rendering := render { source := some source, limit := limit } nodes store
    (∀ e, rendering.result = .error e →
      ∃ names final, Reaches source nodes store names final ∧ Leads source nodes names final ∧
        names.length ≤ limit ∧ parse final = .error e) ∧
    (∀ names final e, Reaches source nodes store names final → names.length ≤ limit →
      parse final = .error e → ∃ e', rendering.result = .error e') ∧
    ((∀ name text, source name = .source text → ∃ inner, parse text = .ok inner) →
      ∃ content, rendering.result = .ok content) ∧
    (render {} nodes store).result = .ok (renderAlone nodes store) := by
  intro rendering
  have hreached : ∀ e, rendering.result = .error e →
      ∃ names final, Reaches source nodes store names final ∧ Leads source nodes names final ∧
        names.length ≤ limit ∧ parse final = .error e := by
    intro e h
    obtain ⟨names, final, hreaches, hlength, hfinal⟩ := exists_reaches_of_renderWithin h
    exact ⟨names, final, hreaches, hreaches.leads, hlength, hfinal⟩
  refine ⟨hreached, ?_, ?_, result_render_eq_ok_renderAlone nodes store⟩
  · intro names final e hreaches hlength hfinal
    exact exists_error_of_reaches hreaches hlength hfinal
  · intro hsound
    cases hresult : rendering.result with
    | ok content => exact ⟨content, rfl⟩
    | error e =>
        obtain ⟨names, final, -, hleads, -, hfinal⟩ := hreached e hresult
        obtain ⟨name, hname⟩ := hleads.exists_source
        obtain ⟨inner, hinner⟩ := hsound name final hname
        rw [hfinal] at hinner
        cases hinner

/-- A frame that includes its core if `on` holds, and a core that is broken in its second line. -/
def crackedSource (name : String) : Found :=
  if name = "frame" then .source "\x7b\x7b#if on\x7d\x7d\x7b\x7b> core\x7d\x7d\x7b\x7b/if\x7d\x7d"
  else if name = "core" then .source "first\n\x7b\x7b#each rows\x7d\x7d"
  else .missing

def crackedTree : List Node :=
  [.condition "off" false [.inclusion "core" []] none, .loop "rows" [.inclusion "frame" []]]

def crackedStore : Store :=
  .ofList [("rows", .list [.ofList [], .ofList [("on", .flag true)]])]

theorem render_fails_reached_cracked :
    let rendering := render { source := some crackedSource, limit := 2 } crackedTree crackedStore
    rendering.result = .error (.unclosedBlock .each 2) ∧
      (∃ names final, Reaches crackedSource crackedTree crackedStore names final ∧
        Leads crackedSource crackedTree names final ∧ names.length ≤ 2 ∧
        parse final = .error (.unclosedBlock .each 2) ∧ ∃ e', rendering.result = .error e') ∧
      (∀ text, Found.source "plain" = .source text → ∃ inner, parse text = .ok inner) ∧
      ∃ content, (render { source := some fun _ => .source "plain", limit := 2 } crackedTree
        crackedStore).result = .ok content := by
  intro rendering
  have hresult : rendering.result = .error (.unclosedBlock .each 2) := by decide +kernel
  have hsound : ∀ text, Found.source "plain" = .source text → ∃ inner, parse text = .ok inner := by
    rintro text ⟨⟩
    exact ⟨[.text "plain"], by decide +kernel⟩
  obtain ⟨hreached, hfails, -⟩ := render_fails_reached crackedSource 2 crackedTree crackedStore
  obtain ⟨-, -, hok, -⟩ :=
    render_fails_reached (fun _ => .source "plain") 2 crackedTree crackedStore
  obtain ⟨names, final, hreaches, hleads, hlength, hfinal⟩ := hreached _ hresult
  have hagain := hfails names final _ hreaches hlength hfinal
  exact ⟨hresult, ⟨names, final, hreaches, hleads, hlength, hfinal, hagain⟩, hsound,
    hok fun _ => hsound⟩

end Renderer

/-- The other is the same, unless it says of the first that an inclusion was too deep. -/
def Rendering.SameUnlessTooDeep (rendering other : Rendering) : Prop :=
  (∀ name limit, .tooDeep name limit ∉ rendering.warnings) → other = rendering

theorem Rendering.isCongruence_sameUnlessTooDeep : IsCongruence SameUnlessTooDeep := by
  refine ⟨fun content _ => rfl, fun {first first' second second'} hfirst hsecond hquiet => ?_⟩
  cases hresult : first.result with
  | error e =>
      rw [andThen_of_error hresult] at hquiet ⊢
      rw [hfirst hquiet, andThen_of_error hresult]
  | ok content =>
      rw [warnings_andThen_of_ok hresult] at hquiet
      rw [hfirst fun name limit hmem => hquiet name limit (List.mem_append_left _ hmem),
        hsecond fun name limit hmem => hquiet name limit (List.mem_append_right _ hmem)]

namespace Renderer

theorem sameUnlessTooDeep_renderWithin (source : String → Found) (limit limit' : Nat)
    {remaining remaining' : Nat} (h : remaining ≤ remaining') (nodes : List Node) (store : Store) :
    (renderWithin limit source remaining nodes store).SameUnlessTooDeep
      (renderWithin limit' source remaining' nodes store) := by
  induction remaining generalizing remaining' nodes store with
  | zero =>
      rw [renderWithin, renderWithin]
      refine Rendering.isCongruence_sameUnlessTooDeep.renderAll _ _ nodes ?_ store
      intro name _ parameters inside hquiet
      exact absurd (List.mem_singleton_self _) (hquiet name limit)
  | succ remaining ih =>
      obtain ⟨remaining', rfl⟩ := Nat.exists_eq_succ_of_ne_zero (Nat.ne_zero_of_lt h)
      rw [renderWithin, renderWithin]
      refine Rendering.isCongruence_sameUnlessTooDeep.renderAll _ _ nodes ?_ store
      intro name _ parameters inside
      rw [included_succ, included_succ]
      refine Found.shown_related (fun _ _ => rfl) name (source name) ?_
      intro text inner _ _
      exact ih (Nat.le_of_succ_le_succ h) inner (scope inside parameters)

/-- **The limit is only a safety net.** A rendering in which no inclusion was too deep is the same
under every larger limit: its text or its error, and all that it warns of. -/
theorem render_of_not_tooDeep (renderer : Renderer) (nodes : List Node) (store : Store)
    (hquiet : ∀ name limit, .tooDeep name limit ∉ (renderer.render nodes store).warnings)
    (limit : Nat) (hle : renderer.limit ≤ limit) :
    ({ renderer with limit := limit } : Renderer).render nodes store =
      renderer.render nodes store := by
  obtain ⟨source, own⟩ := renderer
  cases source with
  | none => rfl
  | some source => exact sameUnlessTooDeep_renderWithin source own limit hle nodes store hquiet

/-- A template that includes itself, with nothing under the name that it asks for. -/
def walkingSource (name : String) : Found :=
  if name = "walk" then
    .source "a\x7b\x7b#if go\x7d\x7d\x7b\x7b> walk go=\"\"\x7d\x7d\x7b\x7b/if\x7d\x7d"
  else .missing

def walkingTree : List Node :=
  [.loop "rows" [.inclusion "walk" []]]

def walkingStore : Store :=
  .ofList [("rows", .list [.ofList [], .ofList [("go", .text "on")]])]

theorem render_of_not_tooDeep_walking :
    let renderer : Renderer := { source := some walkingSource, limit := 2 }
    (∀ name limit, .tooDeep name limit ∉ (renderer.render walkingTree walkingStore).warnings) ∧
      renderer.limit ≤ 5 ∧
      ({ renderer with limit := 5 } : Renderer).render walkingTree walkingStore =
        renderer.render walkingTree walkingStore := by
  intro renderer
  have hwarnings : (renderer.render walkingTree walkingStore).warnings = [] := by decide +kernel
  have hquiet : ∀ name limit,
      .tooDeep name limit ∉ (renderer.render walkingTree walkingStore).warnings := by
    intro name limit
    rw [hwarnings]
    exact List.not_mem_nil
  have hle : renderer.limit ≤ 5 := by decide
  exact ⟨hquiet, hle, render_of_not_tooDeep renderer walkingTree walkingStore hquiet 5 hle⟩

end Renderer

end PromptSheet.Template
