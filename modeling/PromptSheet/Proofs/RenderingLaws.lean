import Mathlib.Data.List.Forall2
import PromptSheet.Proofs.Results
import PromptSheet.Template.Rendering

/-!
# Renderings one after the other

Renderings make up a monoid: the texts are joined in their order, and nothing comes after an error.
A tree and a store alone decide on the pieces of a rendering, texts and inclusions; the rendering is
that of its pieces in their order. So the rendering of two trees side by side is that of the first and
then that of the second, and all that a rendering leaves besides its text comes of its inclusions.
-/

namespace PromptSheet.Template

namespace Rendering

variable (first second third : Rendering)

theorem andThen_eq (first second : Rendering) :
    (first >> second) = first.andThen fun content => second.map (content ++ ·) := rfl

@[simp]
theorem empty_andThen (second : Rendering) : (empty >> second) = second := by
  obtain ⟨warnings, _ | content⟩ := second <;>
    simp [andThen_eq, empty, ofText, Logged.andThen, Logged.ofValue, Logged.map, Except.map]

@[simp]
theorem andThen_empty (first : Rendering) : (first >> empty) = first := by
  obtain ⟨warnings, _ | content⟩ := first <;>
    simp [andThen_eq, empty, ofText, Logged.andThen, Logged.ofValue, Logged.map, Except.map]

theorem andThen_assoc (first second third : Rendering) :
    ((first >> second) >> third) = (first >> (second >> third)) := by
  obtain ⟨warnings, _ | content⟩ := first
  · rfl
  · obtain ⟨warnings', _ | content'⟩ := second
    · rfl
    · obtain ⟨warnings'', _ | content''⟩ := third <;>
        simp [andThen_eq, Logged.andThen, Logged.map, Except.map, String.append_assoc]

theorem ofText_append (first second : String) :
    ofText (first ++ second) = (ofText first >> ofText second) := by
  simp [andThen_eq, ofText, Logged.andThen, Logged.ofValue, Logged.map, Except.map]

theorem result_andThen_of_ok {first second : Rendering} {content content' : String}
    (hfirst : first.result = .ok content) (hsecond : second.result = .ok content') :
    (first >> second).result = .ok (content ++ content') := by
  simp [andThen_eq, Logged.andThen, Logged.map, Except.map, hfirst, hsecond]

theorem andThen_of_error {first : Rendering} {e : ParseError} (h : first.result = .error e)
    (second : Rendering) : (first >> second) = first := by
  obtain ⟨warnings, _ | content⟩ := first
  · rfl
  · cases h

theorem warnings_andThen_of_ok {first : Rendering} {content : String}
    (h : first.result = .ok content) (second : Rendering) :
    (first >> second).warnings = first.warnings ++ second.warnings := by
  simp [andThen_eq, Logged.andThen, Logged.map, h]

/-- Renderings in their order, up to the first that fails. -/
def join (renderings : List Rendering) : Rendering :=
  renderings.foldr (· >> ·) empty

@[simp]
theorem join_nil : join [] = empty := rfl

@[simp]
theorem join_cons (first : Rendering) (rest : List Rendering) :
    join (first :: rest) = (first >> join rest) := rfl

theorem join_singleton (rendering : Rendering) : join [rendering] = rendering :=
  andThen_empty rendering

theorem join_append (front back : List Rendering) :
    join (front ++ back) = (join front >> join back) := by
  induction front with
  | nil => simp
  | cons first front ih => rw [List.cons_append, join_cons, join_cons, ih, andThen_assoc]

theorem join_flatMap {α : Type} (items : List α) (parts : α → List Rendering) :
    join (items.flatMap parts) = join (items.map fun item => join (parts item)) := by
  induction items with
  | nil => rfl
  | cons item items ih => rw [List.flatMap_cons, join_append, ih, List.map_cons, join_cons]

theorem renderItems_eq_join (body : Store → Rendering) (store : Store) (items : List Record)
    (i : Nat) :
    renderItems body store i items =
      join ((items.zipIdx i).map fun item => body (store.child item.1 item.2)) := by
  induction items generalizing i with
  | nil => rfl
  | cons item items ih => rw [renderItems, ih, List.zipIdx_cons, List.map_cons, join_cons]

section Failing

variable {renderings : List Rendering} {rendering : Rendering} {e : ParseError}

theorem exists_error_of_join (h : (join renderings).result = .error e) :
    ∃ rendering ∈ renderings, rendering.result = .error e := by
  induction renderings with
  | nil => cases h
  | cons first rest ih =>
      rw [join_cons, andThen_eq, Logged.result_andThen] at h
      obtain h | ⟨content, -, h⟩ := eq_error_of_bind h
      · exact ⟨first, List.mem_cons_self, h⟩
      · obtain ⟨rendering, hmem, hfails⟩ := ih (eq_error_of_map h)
        exact ⟨rendering, List.mem_cons_of_mem first hmem, hfails⟩

/-- The error need not be the same: something before may fail already. -/
theorem exists_error_join_of_mem (hmem : rendering ∈ renderings)
    (h : rendering.result = .error e) : ∃ e', (join renderings).result = .error e' := by
  induction renderings with
  | nil => cases hmem
  | cons first rest ih =>
      cases hfirst : first.result with
      | error e' => exact ⟨e', by rw [join_cons, andThen_of_error hfirst, hfirst]⟩
      | ok content =>
          have hrest : rendering ∈ rest := by
            refine (List.mem_cons.1 hmem).resolve_left ?_
            rintro rfl
            rw [hfirst] at h
            cases h
          obtain ⟨e', he'⟩ := ih hrest
          refine ⟨e', ?_⟩
          rw [join_cons, andThen_eq, Logged.result_andThen, hfirst]
          show (join rest).result.map _ = _
          rw [he']
          rfl

end Failing

end Rendering

/-- A part of what is rendered: a text, or an inclusion and the store of the place where it
stands. -/
inductive Piece where
  | text (content : String)
  | inclusion (name : String) (parameters : List (String × String)) (store : Store)

def Piece.render (incl : Include) : Piece → Rendering
  | .text content => Rendering.ofText content
  | .inclusion name parameters store => incl name parameters store

namespace Node

mutual

/-- What a node comes to in a store before anything is included. -/
def pieces : Node → Store → List Piece
  | .text content, _ => [.text content]
  | .slot name, store => [.text (slotText store name)]
  | .rawSlot name, store => [.text (slotText store name)]
  | .condition expression negated body none, store =>
    if store.holds expression != negated then piecesOf body store else []
  | .condition expression negated body (some other), store =>
    if store.holds expression != negated then piecesOf body store else piecesOf other store
  | .loop collection body, store =>
    ((store.getList? collection).getD []).zipIdx.flatMap fun item =>
      piecesOf body (store.child item.1 item.2)
  | .inclusion name parameters, store => [.inclusion name parameters store]
  | .comment _, _ => []

def piecesOf : List Node → Store → List Piece
  | [], _ => []
  | node :: rest, store => pieces node store ++ piecesOf rest store

end

variable (incl : Include) (store : Store)

@[simp]
theorem renderAll_nil : renderAll incl [] store = Rendering.empty := by
  rw [renderAll]

@[simp]
theorem renderAll_cons (node : Node) (nodes : List Node) :
    renderAll incl (node :: nodes) store = (render incl node store >> renderAll incl nodes store) := by
  rw [renderAll]

mutual

theorem render_eq_join (incl : Include) (node : Node) (store : Store) :
    render incl node store = .join ((pieces node store).map (Piece.render incl)) := by
  match node with
  | .text content | .slot name | .rawSlot name | .inclusion name parameters =>
      rw [render, pieces, List.map_singleton, Rendering.join_singleton, Piece.render]
  | .comment content =>
      rw [render, pieces]
      rfl
  | .loop collection body =>
      rw [render, pieces]
      cases store.getList? collection with
      | none => rfl
      | some items =>
          show renderItems (renderAll incl body) store 0 items =
            .join ((items.zipIdx.flatMap _).map (Piece.render incl))
          rw [Rendering.renderItems_eq_join, List.map_flatMap, Rendering.join_flatMap]
          exact congrArg Rendering.join
            (List.map_congr_left fun item _ => renderAll_eq_join incl body _)
  | .condition expression negated body none =>
      rw [render, pieces]
      split
      · exact renderAll_eq_join incl body store
      · rfl
  | .condition expression negated body (some other) =>
      rw [render, pieces]
      split
      · exact renderAll_eq_join incl body store
      · exact renderAll_eq_join incl other store

theorem renderAll_eq_join (incl : Include) (nodes : List Node) (store : Store) :
    renderAll incl nodes store = .join ((piecesOf nodes store).map (Piece.render incl)) := by
  match nodes with
  | [] => rw [renderAll_nil, piecesOf, List.map_nil, Rendering.join_nil]
  | node :: rest =>
      rw [renderAll_cons, piecesOf, List.map_append, Rendering.join_append, render_eq_join incl node,
        renderAll_eq_join incl rest]

end

mutual

theorem mem_inclusions_of_mem_pieces {name : String} {parameters : List (String × String)}
    {inside : Store} (node : Node) (store : Store)
    (h : Piece.inclusion name parameters inside ∈ pieces node store) : name ∈ node.inclusions := by
  match node with
  | .text _ | .slot _ | .rawSlot _ =>
      rw [pieces, List.mem_singleton] at h
      cases h
  | .comment _ =>
      rw [pieces] at h
      cases h
  | .inclusion _ _ =>
      rw [pieces, List.mem_singleton] at h
      cases h
      exact List.mem_cons_self
  | .loop collection body =>
      rw [pieces] at h
      obtain ⟨item, -, hitem⟩ := List.mem_flatMap.1 h
      exact mem_inclusionsOf_of_mem_pieces body (store.child item.1 item.2) hitem
  | .condition expression negated body none =>
      rw [pieces] at h
      split at h
      · exact mem_inclusionsOf_of_mem_pieces body store h
      · cases h
  | .condition expression negated body (some other) =>
      rw [pieces] at h
      split at h
      · exact List.mem_append_left _ (mem_inclusionsOf_of_mem_pieces body store h)
      · exact List.mem_append_right _ (mem_inclusionsOf_of_mem_pieces other store h)

theorem mem_inclusionsOf_of_mem_pieces {name : String} {parameters : List (String × String)}
    {inside : Store} (nodes : List Node) (store : Store)
    (h : Piece.inclusion name parameters inside ∈ piecesOf nodes store) :
    name ∈ inclusionsOf nodes := by
  match nodes with
  | [] =>
      rw [piecesOf] at h
      cases h
  | node :: rest =>
      rw [piecesOf] at h
      rcases List.mem_append.1 h with h | h
      · exact List.mem_append_left _ (mem_inclusions_of_mem_pieces node store h)
      · exact List.mem_append_right _ (mem_inclusionsOf_of_mem_pieces rest store h)

end

theorem renderAll_singleton (node : Node) : renderAll incl [node] store = render incl node store := by
  rw [renderAll_cons, renderAll_nil, Rendering.andThen_empty]

theorem renderAll_append (first second : List Node) :
    renderAll incl (first ++ second) store =
      (renderAll incl first store >> renderAll incl second store) := by
  induction first with
  | nil => simp
  | cons node first ih => rw [List.cons_append, renderAll_cons, renderAll_cons, ih,
      Rendering.andThen_assoc]

end Node

/-! ### What inclusions decide

A rendering is put together of texts and of what its inclusions show. A property of renderings that
texts have, and that is kept when one follows another, is thus one of the whole as soon as the
inclusions have it; the same goes for a relation between two renderings.
-/

namespace Rendering

/-- A rendering that leaves a text and says nothing. -/
def IsSilent (rendering : Rendering) : Prop :=
  ∃ content, rendering = ofText content

theorem isSilent_ofText (content : String) : IsSilent (ofText content) :=
  ⟨content, rfl⟩

theorem IsSilent.andThen {first second : Rendering} (hfirst : IsSilent first)
    (hsecond : IsSilent second) : IsSilent (first >> second) := by
  obtain ⟨content, rfl⟩ := hfirst
  obtain ⟨content', rfl⟩ := hsecond
  exact ⟨content ++ content', (ofText_append content content').symm⟩

/-- Every text is related to itself, and renderings one after the other are as soon as each is. A
property of one rendering is taken for a relation to any other. -/
structure IsCongruence (R : Rendering → Rendering → Prop) : Prop where
  ofText : ∀ content, R (ofText content) (ofText content)
  andThen : ∀ {first first' second second' : Rendering}, R first first' → R second second' →
    R (first >> second) (first' >> second')

theorem isCongruence_isSilent : IsCongruence fun rendering _ => rendering.IsSilent :=
  ⟨isSilent_ofText, IsSilent.andThen⟩

theorem isCongruence_warnings (P : Warning → Prop) :
    IsCongruence fun rendering _ => ∀ warning ∈ rendering.warnings, P warning := by
  refine ⟨fun content => List.forall_mem_nil _, fun {first _ second _} hfirst hsecond => ?_⟩
  cases hresult : first.result with
  | error e =>
      rw [andThen_of_error hresult]
      exact hfirst
  | ok content =>
      rw [warnings_andThen_of_ok hresult]
      exact List.forall_mem_append.2 ⟨hfirst, hsecond⟩

namespace IsCongruence

variable {R : Rendering → Rendering → Prop}

theorem join (h : IsCongruence R) {renderings renderings' : List Rendering}
    (hall : List.Forall₂ R renderings renderings') :
    R (Rendering.join renderings) (Rendering.join renderings') := by
  induction hall with
  | nil => exact h.ofText ""
  | cons hfirst _ ih => exact h.andThen hfirst ih

theorem renderItems (h : IsCongruence R) {body body' : Store → Rendering}
    (hbody : ∀ store, R (body store) (body' store)) (store : Store) (items : List Record)
    (i : Nat) :
    R (Template.renderItems body store i items) (Template.renderItems body' store i items) := by
  rw [renderItems_eq_join, renderItems_eq_join]
  apply h.join
  rw [List.forall₂_map_left_iff, List.forall₂_map_right_iff, List.forall₂_same]
  intro item _
  exact hbody (store.child item.1 item.2)

/-- Only those inclusions have to be related that a tree comes to in the store. -/
theorem renderAll_of_pieces (h : IsCongruence R) {incl incl' : Include} {nodes : List Node}
    {store : Store}
    (hincl : ∀ name parameters inside,
      .inclusion name parameters inside ∈ Node.piecesOf nodes store →
      R (incl name parameters inside) (incl' name parameters inside)) :
    R (Node.renderAll incl nodes store) (Node.renderAll incl' nodes store) := by
  rw [Node.renderAll_eq_join, Node.renderAll_eq_join]
  apply h.join
  rw [List.forall₂_map_left_iff, List.forall₂_map_right_iff, List.forall₂_same]
  intro piece hpiece
  cases piece with
  | text content => exact h.ofText content
  | inclusion name parameters inside => exact hincl name parameters inside hpiece

theorem renderAll (h : IsCongruence R) (incl incl' : Include) (nodes : List Node)
    (hincl : ∀ name ∈ Node.inclusionsOf nodes, ∀ parameters store,
      R (incl name parameters store) (incl' name parameters store)) (store : Store) :
    R (Node.renderAll incl nodes store) (Node.renderAll incl' nodes store) := by
  apply h.renderAll_of_pieces
  intro name parameters inside hpiece
  exact hincl name (Node.mem_inclusionsOf_of_mem_pieces nodes store hpiece) parameters inside

end IsCongruence

end Rendering

namespace Node

/-- Only an inclusion can warn or fail. -/
theorem isSilent_renderAll (incl : Include) (nodes : List Node) (h : inclusionsOf nodes = [])
    (store : Store) : (renderAll incl nodes store).IsSilent := by
  apply Rendering.isCongruence_isSilent.renderAll incl incl nodes
  intro name hname
  rw [h] at hname
  cases hname

theorem forall_warnings_renderAll {P : Warning → Prop} {incl : Include} (nodes : List Node)
    (h : ∀ name parameters store, ∀ warning ∈ (incl name parameters store).warnings, P warning)
    (store : Store) : ∀ warning ∈ (renderAll incl nodes store).warnings, P warning :=
  (Rendering.isCongruence_warnings P).renderAll incl incl nodes (fun name _ => h name) store

section Failing

variable {incl : Include} {nodes : List Node} {store : Store} {e : ParseError}

/-- A tree fails as one of the inclusions does that it comes to. -/
theorem exists_inclusion_of_error (h : (renderAll incl nodes store).result = .error e) :
    ∃ name parameters inside, .inclusion name parameters inside ∈ piecesOf nodes store ∧
      (incl name parameters inside).result = .error e := by
  rw [renderAll_eq_join] at h
  obtain ⟨rendering, hmem, hfails⟩ := Rendering.exists_error_of_join h
  obtain ⟨piece, hpiece, rfl⟩ := List.mem_map.1 hmem
  cases piece with
  | text content => cases hfails
  | inclusion name parameters inside => exact ⟨name, parameters, inside, hpiece, hfails⟩

theorem exists_error_of_inclusion {name : String} {parameters : List (String × String)}
    {inside : Store} (hpiece : .inclusion name parameters inside ∈ piecesOf nodes store)
    (h : (incl name parameters inside).result = .error e) :
    ∃ e', (renderAll incl nodes store).result = .error e' := by
  rw [renderAll_eq_join]
  exact Rendering.exists_error_join_of_mem (List.mem_map_of_mem hpiece) h

end Failing

end Node

theorem Found.shown_source {text : String} {nodes : List Node} (h : parse text = .ok nodes)
    (name : String) (inner : List Node → Rendering) :
    (Found.source text).shown name inner = inner nodes := by
  simp only [shown, h]

theorem Found.shown_broken {text : String} {e : ParseError} (h : parse text = .error e)
    (name : String) (inner : List Node → Rendering) :
    (Found.source text).shown name inner = .fail e := by
  simp only [shown, h]

/-- Two ways to show the same find can differ only in how they render the tree of its text. -/
theorem Found.shown_related {R : Rendering → Rendering → Prop}
    (hrefl : ∀ rendering, R rendering rendering) (name : String) (found : Found)
    {inner inner' : List Node → Rendering}
    (h : ∀ text nodes, found = .source text → parse text = .ok nodes →
      R (inner nodes) (inner' nodes)) :
    R (found.shown name inner) (found.shown name inner') := by
  cases found with
  | missing => exact hrefl _
  | unreadable => exact hrefl _
  | source text =>
      cases hparse : parse text with
      | error e =>
          rw [shown_broken hparse, shown_broken hparse]
          exact hrefl _
      | ok nodes =>
          rw [shown_source hparse, shown_source hparse]
          exact h text nodes rfl hparse

namespace Renderer

theorem included_succ (limit : Nat) (source : String → Found) (remaining : Nat) (name : String)
    (parameters : List (String × String)) (store : Store) :
    included limit source (remaining + 1) name parameters store =
      (source name).shown name fun nodes =>
        renderWithin limit source remaining nodes (scope store parameters) := rfl

/-- All that can come of an inclusion that is not too deep: nothing of the name can be shown, or its
text is broken, or the tree of its text is rendered. -/
theorem included_cases (limit : Nat) (source : String → Found) (remaining : Nat) (name : String)
    (parameters : List (String × String)) (store : Store) :
    let shown := included limit source (remaining + 1) name parameters store
    (source name = .missing ∧
        shown = .warn (.templateNotFound name) (missingRemark name)) ∨
      (source name = .unreadable ∧
        shown = { warnings := [.templateUnreadable name, .templateNotFound name]
                  result := .ok (missingRemark name) }) ∨
      (∃ text e, source name = .source text ∧ parse text = .error e ∧ shown = .fail e) ∨
      ∃ text nodes, source name = .source text ∧ parse text = .ok nodes ∧
        shown = renderWithin limit source remaining nodes (scope store parameters) := by
  intro shown
  cases hsource : source name with
  | missing => exact .inl ⟨rfl, by simp only [shown, included_succ, hsource, Found.shown]⟩
  | unreadable => exact .inr (.inl ⟨rfl, by simp only [shown, included_succ, hsource, Found.shown]⟩)
  | source text =>
      cases hparse : parse text with
      | error e =>
          exact .inr (.inr (.inl ⟨text, e, rfl, hparse, by
            simp only [shown, included_succ, hsource, Found.shown, hparse]⟩))
      | ok nodes =>
          exact .inr (.inr (.inr ⟨text, nodes, rfl, hparse, by
            simp only [shown, included_succ, hsource, Found.shown, hparse]⟩))

theorem exists_include_renderWithin (limit : Nat) (source : String → Found) (remaining : Nat) :
    ∃ incl, ∀ nodes store,
      renderWithin limit source remaining nodes store = Node.renderAll incl nodes store :=
  ⟨included limit source remaining, fun _ _ => rfl⟩

/-- Whatever the renderer, it goes through a tree node by node. -/
theorem exists_include (renderer : Renderer) :
    ∃ incl, ∀ nodes store, renderer.render nodes store = Node.renderAll incl nodes store := by
  unfold render
  cases renderer.source with
  | none => exact ⟨_, fun _ _ => rfl⟩
  | some source => exact exists_include_renderWithin renderer.limit source renderer.limit

end Renderer

end PromptSheet.Template
