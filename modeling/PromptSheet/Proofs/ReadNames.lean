import Mathlib.Data.List.Forall2
import PromptSheet.Proofs.Paths
import PromptSheet.Proofs.RenderingLaws

/-!
# What a rendering depends on

A rendering asks its source for texts and its store for values, and the names that it may ask for
can be read off trees beforehand. It asks the source for no name but those that the tree includes,
those that are included by what is found under these, and so on. It asks the store for no name but
those that stand in one of these trees, and a name leads to a value by two bindings alone, its own
and that of its root. What there is under any other name is of no matter.

Both are one induction on how deep inclusions may still nest. It compares the renderings of one tree
from two sources in two stores: inside of a loop or of an included template the stores agree on the
same names as outside, since what is laid over them is the same.
-/

namespace PromptSheet

/-- The stores lie in as many loops, and these names and their roots have the same bindings in both,
or none. -/
structure Store.AgreesOn (names : String → Prop) (store other : Store) : Prop where
  loopDepth : store.loopDepth = other.loopDepth
  own : ∀ name, names name → store.bindings.get? name = other.bindings.get? name
  root : ∀ name, names name → store.bindings.get? (root name) = other.bindings.get? (root name)

namespace Store.AgreesOn

variable {names : String → Prop} {store other : Store} {name : String}

theorem refl (names : String → Prop) (store : Store) : store.AgreesOn names store :=
  ⟨rfl, fun _ _ => rfl, fun _ _ => rfl⟩

theorem set_of_ne {key : String}
    (hnames : ∀ name, names name → name ≠ key ∧ PromptSheet.root name ≠ key) (value : Value) :
    store.AgreesOn names (store.set key value) where
  loopDepth := rfl
  own name hname := by rw [Store.set, Dict.get?_insert, if_neg (hnames name hname).1]
  root name hname := by rw [Store.set, Dict.get?_insert, if_neg (hnames name hname).2]

theorem get? (h : store.AgreesOn names other) (hname : names name) :
    store.get? name = other.get? name :=
  Store.get?_congr (h.own name hname) (h.root name hname)

theorem slotText (h : store.AgreesOn names other) (hname : names name) :
    Template.slotText store name = Template.slotText other name := by
  rw [Template.slotText, Template.slotText, h.loopDepth, h.get? hname]

theorem holds (h : store.AgreesOn names other) (hname : names name) :
    store.holds name = other.holds name := by
  rw [Store.holds, Store.holds, h.get? hname]

theorem getList? (h : store.AgreesOn names other) (hname : names name) :
    store.getList? name = other.getList? name := by
  rw [Store.getList?, Store.getList?, h.get? hname]

theorem setAll (h : store.AgreesOn names other) (entries : List (String × Value)) :
    (store.setAll entries).AgreesOn names (other.setAll entries) where
  loopDepth := h.loopDepth
  own name hname := Dict.get?_insertAll_congr (h.own name hname) entries
  root name hname := Dict.get?_insertAll_congr (h.root name hname) entries

theorem set (h : store.AgreesOn names other) (key : String) (value : Value) :
    (store.set key value).AgreesOn names (other.set key value) :=
  h.setAll [(key, value)]

theorem child (h : store.AgreesOn names other) (item : Record) (i : Nat) :
    (store.child item i).AgreesOn names (other.child item i) := by
  have hfields := h.setAll item.entries
  have hplaces := (hfields.set indexName (.ofCount i)).set placeName (.ofCount (i + 1))
  exact ⟨congrArg (· + 1) h.loopDepth, hplaces.own, hplaces.root⟩

end Store.AgreesOn

namespace Template

namespace Node

mutual

/-- The names that stand in a node: of slots, and as expressions and collections of blocks. -/
def mentions : Node → List String
  | .slot name => [name]
  | .rawSlot name => [name]
  | .condition expression _ body none => expression :: mentionsOf body
  | .condition expression _ body (some other) => expression :: (mentionsOf body ++ mentionsOf other)
  | .loop collection body => collection :: mentionsOf body
  | .text _ => []
  | .inclusion _ _ => []
  | .comment _ => []

def mentionsOf : List Node → List String
  | [] => []
  | node :: rest => mentions node ++ mentionsOf rest

end

end Node

/-- The same text, or the same inclusion in stores that are related. -/
inductive Piece.Alike (S : Store → Store → Prop) : Piece → Piece → Prop where
  | text (content : String) : Alike S (.text content) (.text content)
  | inclusion (name : String) (parameters : List (String × String)) {store other : Store}
      (h : S store other) :
      Alike S (.inclusion name parameters store) (.inclusion name parameters other)

namespace Node

variable {names : String → Prop}

mutual

/-- A tree comes to the same pieces in stores that agree on the names in it. -/
theorem pieces_alike (node : Node) (hnames : ∀ name ∈ node.mentions, names name)
    {store other : Store} (h : store.AgreesOn names other) :
    List.Forall₂ (Piece.Alike (Store.AgreesOn names)) (node.pieces store) (node.pieces other) := by
  match node with
  | .text content =>
      rw [pieces, pieces]
      exact .cons (.text content) .nil
  | .slot name | .rawSlot name =>
      rw [pieces, pieces, h.slotText (hnames name List.mem_cons_self)]
      exact .cons (.text _) .nil
  | .comment content =>
      rw [pieces, pieces]
      exact .nil
  | .inclusion name parameters =>
      rw [pieces, pieces]
      exact .cons (.inclusion name parameters h) .nil
  | .loop collection body =>
      obtain ⟨hcollection, hbody⟩ := List.forall_mem_cons.1 hnames
      rw [pieces, pieces, h.getList? hcollection]
      refine List.rel_flatMap (List.forall₂_same.2 fun _ _ => rfl) ?_
      rintro item _ rfl
      exact piecesOf_alike body hbody (h.child item.1 item.2)
  | .condition expression negated body none =>
      obtain ⟨hexpression, hbody⟩ := List.forall_mem_cons.1 hnames
      rw [pieces, pieces, h.holds hexpression]
      split
      · exact piecesOf_alike body hbody h
      · exact .nil
  | .condition expression negated body (some otherwise) =>
      obtain ⟨hexpression, hbranches⟩ := List.forall_mem_cons.1 hnames
      obtain ⟨hbody, hotherwise⟩ := List.forall_mem_append.1 hbranches
      rw [pieces, pieces, h.holds hexpression]
      split
      · exact piecesOf_alike body hbody h
      · exact piecesOf_alike otherwise hotherwise h

theorem piecesOf_alike (nodes : List Node) (hnames : ∀ name ∈ mentionsOf nodes, names name)
    {store other : Store} (h : store.AgreesOn names other) :
    List.Forall₂ (Piece.Alike (Store.AgreesOn names)) (piecesOf nodes store)
      (piecesOf nodes other) := by
  match nodes with
  | [] =>
      rw [piecesOf, piecesOf]
      exact .nil
  | node :: rest =>
      obtain ⟨hnode, hrest⟩ := List.forall_mem_append.1 hnames
      rw [piecesOf, piecesOf]
      exact List.rel_append (pieces_alike node hnode h) (piecesOf_alike rest hrest h)

end

end Node

theorem Rendering.IsCongruence.renderAll_alike {R : Rendering → Rendering → Prop}
    {S : Store → Store → Prop} (hR : IsCongruence R) {incl incl' : Include} {nodes : List Node}
    {store other : Store}
    (hpieces : List.Forall₂ (Piece.Alike S) (Node.piecesOf nodes store)
      (Node.piecesOf nodes other))
    (hincl : ∀ name ∈ Node.inclusionsOf nodes, ∀ parameters inside inside', S inside inside' →
      R (incl name parameters inside) (incl' name parameters inside')) :
    R (Node.renderAll incl nodes store) (Node.renderAll incl' nodes other) := by
  have hmem : ∀ piece ∈ Node.piecesOf nodes store, piece ∈ Node.piecesOf nodes store :=
    fun _ h => h
  rw [Node.renderAll_eq_join, Node.renderAll_eq_join]
  apply hR.join
  rw [List.forall₂_map_left_iff, List.forall₂_map_right_iff]
  refine ((List.forall₂_and_left _ _).2 ⟨hmem, hpieces⟩).imp ?_
  rintro _ _ ⟨hpiece, halike⟩
  cases halike with
  | text content => exact hR.ofText content
  | inclusion name parameters h =>
      exact hincl name (Node.mem_inclusionsOf_of_mem_pieces nodes store hpiece) parameters _ _ h

/-- The least set of names with those that a tree includes and, for each name in it under which there
is a template, those that this template includes. -/
inductive Asked (source : String → Found) (nodes : List Node) : String → Prop where
  | named {name : String} (hname : name ∈ Node.inclusionsOf nodes) : Asked source nodes name
  | inside {outer text name : String} {inner : List Node} (houter : Asked source nodes outer)
      (htext : source outer = .source text) (hparse : parse text = .ok inner)
      (hname : name ∈ Node.inclusionsOf inner) : Asked source nodes name

/-- A name that stands in a tree, or in one that its rendering may ask for. -/
inductive Reads (source : String → Found) (nodes : List Node) : String → Prop where
  | own {name : String} (hname : name ∈ Node.mentionsOf nodes) : Reads source nodes name
  | inside {outer text name : String} {inner : List Node} (houter : Asked source nodes outer)
      (htext : source outer = .source text) (hparse : parse text = .ok inner)
      (hname : name ∈ Node.mentionsOf inner) : Reads source nodes name

section Inner

variable {source : String → Found} {nodes inner : List Node} {outer text name : String}

theorem Asked.of_inner (houter : outer ∈ Node.inclusionsOf nodes)
    (htext : source outer = .source text) (hparse : parse text = .ok inner)
    (h : Asked source inner name) : Asked source nodes name := by
  induction h with
  | named hname => exact .inside (.named houter) htext hparse hname
  | inside _ htext hparse hname ih => exact .inside ih htext hparse hname

theorem Reads.of_inner (houter : outer ∈ Node.inclusionsOf nodes)
    (htext : source outer = .source text) (hparse : parse text = .ok inner)
    (h : Reads source inner name) : Reads source nodes name := by
  cases h with
  | own hname => exact .inside (.named houter) htext hparse hname
  | inside hasked htext' hparse' hname =>
      exact .inside (hasked.of_inner houter htext hparse) htext' hparse' hname

end Inner

namespace Renderer

/-- What is found in both sources is the same, or makes no difference to how it is shown. -/
def IsMatch (R : Rendering → Rendering → Prop) (name : String) (found found' : Found) : Prop :=
  found = found' ∨ ∀ inner inner', R (found.shown name inner) (found'.shown name inner')

theorem renderWithin_alike {R : Rendering → Rendering → Prop} (hR : Rendering.IsCongruence R)
    (hrefl : ∀ rendering, R rendering rendering) {source source' : String → Found}
    {names : String → Prop} (limit remaining : Nat) {nodes : List Node} {store other : Store}
    (hsource : ∀ name, Asked source nodes name → IsMatch R name (source name) (source' name))
    (hnames : ∀ name, Reads source nodes name → names name) (h : store.AgreesOn names other) :
    R (renderWithin limit source remaining nodes store)
      (renderWithin limit source' remaining nodes other) := by
  induction remaining generalizing nodes store other with
  | zero =>
      rw [renderWithin, renderWithin]
      refine hR.renderAll_alike (Node.piecesOf_alike nodes (fun name hname => ?_) h) ?_
      · exact hnames name (.own hname)
      · intro name _ parameters inside inside' _
        exact hrefl (.warn (.tooDeep name limit) "")
  | succ remaining ih =>
      rw [renderWithin, renderWithin]
      refine hR.renderAll_alike (Node.piecesOf_alike nodes (fun name hname => ?_) h) ?_
      · exact hnames name (.own hname)
      · intro name hname parameters inside inside' hinside
        rw [included_succ, included_succ]
        rcases hsource name (.named hname) with heq | hshown
        · rw [← heq]
          refine Found.shown_related hrefl name (source name) fun text inner htext hparse => ?_
          refine ih (fun name' hasked => ?_) (fun name' hreads => ?_) (hinside.setAll _)
          · exact hsource name' (hasked.of_inner hname htext hparse)
          · exact hnames name' (hreads.of_inner hname htext hparse)
        · exact hshown _ _

end Renderer

end Template

/-- It says that the source could not read what it has under a name. -/
def Warning.isOfSource : Warning → Bool
  | .templateUnreadable _ => true
  | _ => false

namespace Template

def Found.text? : Found → Option String
  | .source text => some text
  | .missing => none
  | .unreadable => none

namespace Rendering

/-- What is warned of while rendering, without what a source says about itself. -/
def ownWarnings (rendering : Rendering) : List Warning :=
  rendering.warnings.filter fun warning => !warning.isOfSource

def SameButForSource (rendering other : Rendering) : Prop :=
  rendering.result = other.result ∧ rendering.ownWarnings = other.ownWarnings

theorem isCongruence_sameButForSource : IsCongruence SameButForSource := by
  refine ⟨fun content => ⟨rfl, rfl⟩, fun {first first' second second'} hfirst hsecond => ?_⟩
  obtain ⟨hresult, hwarnings⟩ := hfirst
  cases hcontent : first.result with
  | error e =>
      rw [andThen_of_error hcontent, andThen_of_error (hresult ▸ hcontent)]
      exact ⟨hresult, hwarnings⟩
  | ok content =>
      have hcontent' : first'.result = .ok content := hresult ▸ hcontent
      constructor
      · rw [andThen_eq, andThen_eq, Logged.result_andThen, Logged.result_andThen, hcontent,
          hcontent']
        exact congrArg (Except.map _) hsecond.1
      · rw [ownWarnings, ownWarnings, warnings_andThen_of_ok hcontent,
          warnings_andThen_of_ok hcontent', List.filter_append, List.filter_append]
        exact congrArg₂ (· ++ ·) hwarnings hsecond.2

theorem isCongruence_eq : IsCongruence Eq :=
  ⟨fun _ => rfl, fun hfirst hsecond => by rw [hfirst, hsecond]⟩

end Rendering

namespace Renderer

theorem isMatch_of_text?_eq {name : String} {found found' : Found}
    (h : found.text? = found'.text?) :
    IsMatch Rendering.SameButForSource name found found' := by
  cases found with
  | source text =>
      cases found' with
      | source text' => exact .inl (congrArg Found.source (Option.some.inj h))
      | missing | unreadable => cases h
  | missing | unreadable =>
      cases found' with
      | source text' => cases h
      | missing | unreadable => exact .inr fun _ _ => ⟨rfl, rfl⟩

/-- **The names that trees include are all that a source is asked for.** Two sources that have the
same text, or none, under each of these names give the same rendering, but for what a source says by
itself of files that it cannot read. -/
theorem render_eq_of_asked {source source' : String → Found} {nodes : List Node}
    (hsource : ∀ name, Asked source nodes name → (source name).text? = (source' name).text?)
    (limit : Nat) (store : Store) :
    let rendering := render { source := some source, limit := limit } nodes store
    let rendering' := render { source := some source', limit := limit } nodes store
    rendering.result = rendering'.result ∧ rendering.ownWarnings = rendering'.ownWarnings ∧
      ((∀ name, Asked source nodes name → source name = source' name) → rendering = rendering') := by
  intro rendering rendering'
  have hstore : store.AgreesOn (Reads source nodes) store := .refl _ store
  obtain ⟨hresult, hwarnings⟩ := renderWithin_alike Rendering.isCongruence_sameButForSource
    (fun _ => ⟨rfl, rfl⟩) limit limit (fun name hname => isMatch_of_text?_eq (hsource name hname))
    (fun _ hname => hname) hstore
  refine ⟨hresult, hwarnings, fun hsame => ?_⟩
  exact renderWithin_alike Rendering.isCongruence_eq (fun _ => rfl) limit limit
    (fun name hname => .inl (hsame name hname)) (fun _ hname => hname) hstore

def ringText : String :=
  "\x7b\x7bscene.on\x7d\x7d\x7b\x7b> back\x7d\x7d"

def backText : String :=
  "\x7b\x7b> ring size=\"2\"\x7d\x7d\x7b\x7b> gone\x7d\x7d"

/-- Two templates that include each other, and one that is not there. -/
def ringSource (name : String) : Found :=
  if name = "ring" then .source ringText
  else if name = "back" then .source backText
  else .missing

/-- One template more, under a name that nothing includes. -/
def widerRingSource (name : String) : Found :=
  if name = "far" then .source "far" else ringSource name

/-- A file that cannot be read in the place of the missing template. -/
def damagedRingSource (name : String) : Found :=
  if name = "gone" then .unreadable else widerRingSource name

def ringTree : List Node :=
  [.inclusion "ring" []]

theorem ringSource_cases {name text : String} {inner : List Node}
    (htext : ringSource name = .source text) (hparse : parse text = .ok inner) :
    inner = [.slot "scene.on", .inclusion "back" []] ∨
      inner = [.inclusion "ring" [("size", "2")], .inclusion "gone" []] := by
  have hring : parse ringText = .ok [.slot "scene.on", .inclusion "back" []] := by decide +kernel
  have hback : parse backText = .ok [.inclusion "ring" [("size", "2")], .inclusion "gone" []] := by
    decide +kernel
  unfold ringSource at htext
  split at htext
  · cases htext
    exact .inl (Except.ok.inj (hparse.symm.trans hring))
  · split at htext
    · cases htext
      exact .inr (Except.ok.inj (hparse.symm.trans hback))
    · cases htext

theorem mem_of_asked_ring {name : String} (h : Asked ringSource ringTree name) :
    name ∈ ["ring", "back", "gone"] := by
  cases h with
  | named hname =>
      obtain rfl := List.mem_singleton.1 hname
      decide
  | inside _ htext hparse hname =>
      rcases ringSource_cases htext hparse with rfl | rfl
      · obtain rfl := List.mem_singleton.1 hname
        decide
      · obtain rfl | hname := List.mem_cons.1 hname
        · decide
        · obtain rfl := List.mem_singleton.1 hname
          decide

theorem forall_asked_ring {P : String → Prop} (hring : P "ring") (hback : P "back")
    (hgone : P "gone") : ∀ name, Asked ringSource ringTree name → P name := by
  intro name hasked
  have hname := mem_of_asked_ring hasked
  simp only [List.mem_cons, List.not_mem_nil, or_false] at hname
  rcases hname with rfl | rfl | rfl
  · exact hring
  · exact hback
  · exact hgone

theorem render_eq_of_asked_ring :
    (∀ name, Asked ringSource ringTree name →
      (ringSource name).text? = (damagedRingSource name).text?) ∧
    (∀ name, Asked ringSource ringTree name → ringSource name = widerRingSource name) ∧
    let rendering := render { source := some ringSource, limit := 3 } ringTree {}
    let damaged := render { source := some damagedRingSource, limit := 3 } ringTree {}
    rendering.result = damaged.result ∧ rendering.ownWarnings = damaged.ownWarnings ∧
      rendering = render { source := some widerRingSource, limit := 3 } ringTree {} := by
  have hdamaged : ∀ name, Asked ringSource ringTree name →
      (ringSource name).text? = (damagedRingSource name).text? := forall_asked_ring rfl rfl rfl
  have hwider : ∀ name, Asked ringSource ringTree name → ringSource name = widerRingSource name :=
    forall_asked_ring rfl rfl rfl
  have hwiderText : ∀ name, Asked ringSource ringTree name →
      (ringSource name).text? = (widerRingSource name).text? := by
    intro name hname
    rw [hwider name hname]
  obtain ⟨hresult, hwarnings, -⟩ := render_eq_of_asked hdamaged 3 {}
  obtain ⟨-, -, heq⟩ := render_eq_of_asked hwiderText 3 {}
  exact ⟨hdamaged, hwider, hresult, hwarnings, heq hwider⟩

/-- **A rendering reads the names that stand in its trees, and no others.** Where nothing is
included, these are the names in the tree itself, whatever the renderer. -/
theorem render_eq_of_mentioned (nodes : List Node) (store other : Store) :
    (Node.inclusionsOf nodes = [] → store.AgreesOn (· ∈ Node.mentionsOf nodes) other →
      ∀ renderer : Renderer, renderer.render nodes store = renderer.render nodes other) ∧
    ∀ source limit, store.AgreesOn (Reads source nodes) other →
      render { source := some source, limit := limit } nodes store =
        render { source := some source, limit := limit } nodes other := by
  constructor
  · intro hnone h renderer
    obtain ⟨incl, hincl⟩ := renderer.exists_include
    rw [hincl, hincl]
    have hpieces := Node.piecesOf_alike nodes (fun _ hname => hname) h
    refine Rendering.isCongruence_eq.renderAll_alike hpieces ?_
    intro name hname
    rw [hnone] at hname
    cases hname
  · intro source limit h
    exact renderWithin_alike Rendering.isCongruence_eq (fun _ => rfl) limit limit
      (fun _ _ => .inl rfl) (fun _ hname => hname) h

def sceneTree : List Node :=
  [.loop "rows" [.slot "scene.on", .condition "scene.off" true [.rawSlot "@index"] none]]

def sceneStore : Store :=
  .ofList [("rows", .list [.ofList [("scene", .text "own")], {}]),
    ("scene", .record (.ofList [("on", .text "lit")]))]

theorem eq_of_reads_ring {name : String} (h : Reads ringSource ringTree name) :
    name = "scene.on" := by
  cases h with
  | own hname => cases hname
  | inside _ htext hparse hname =>
      rcases ringSource_cases htext hparse with rfl | rfl
      · exact List.mem_singleton.1 hname
      · cases hname

/-- Inside of the loop one item hides the scene that paths start from. -/
theorem render_eq_of_mentioned_scene :
    Node.inclusionsOf sceneTree = [] ∧
      sceneStore.AgreesOn (· ∈ Node.mentionsOf sceneTree) (sceneStore.set "other" (.text "new")) ∧
      sceneStore.AgreesOn (Reads ringSource ringTree) (sceneStore.set "other" (.text "new")) ∧
      render {} sceneTree sceneStore = render {} sceneTree (sceneStore.set "other" (.text "new")) ∧
      render { source := some ringSource } ringTree sceneStore =
        render { source := some ringSource } ringTree (sceneStore.set "other" (.text "new")) := by
  have hmentioned : sceneStore.AgreesOn (· ∈ Node.mentionsOf sceneTree)
      (sceneStore.set "other" (.text "new")) := .set_of_ne (by decide) _
  have hread : sceneStore.AgreesOn (Reads ringSource ringTree)
      (sceneStore.set "other" (.text "new")) := by
    refine .set_of_ne (fun name hname => ?_) _
    obtain rfl := eq_of_reads_ring hname
    decide
  obtain ⟨halone, -⟩ := render_eq_of_mentioned sceneTree sceneStore
    (sceneStore.set "other" (.text "new"))
  obtain ⟨-, hincluded⟩ := render_eq_of_mentioned ringTree sceneStore
    (sceneStore.set "other" (.text "new"))
  exact ⟨rfl, hmentioned, hread, halone rfl hmentioned {}, hincluded ringSource 10 hread⟩

end Renderer

end Template

end PromptSheet
