import PromptSheet.Catalog.Bundled
import PromptSheet.Binding.Registry
import PromptSheet.Proofs.Paths
import PromptSheet.Proofs.RenderingLaws

/-!
# Lists in the bundled documents

The panels of a comic, the sections of an infographic and the characters of a scene come to a
document through a filter, a record for each and a loop. What is written down here is the text that
comes of them, said of the settings alone: which of them are kept, how they are counted and what is
shown of each.

Inside of a loop the fields of a record hide what is bound outside, as a section's title hides that
of the document. A field that a record lacks is looked up outside, so a panel without narration shows
none because nothing else binds that name.
-/

namespace PromptSheet

open Template (Node Include Rendering slotText)

/-- A count as a document shows it; numbers have 64 bits. -/
def countText (n : Nat) : String :=
  toString (min n (Nat.pow 2 63 - 1))

/-- The texts of some items one after the other, counted from one. -/
def listText {α : Type} (text : Nat → α → String) (items : List α) : String :=
  String.join (items.mapIdx fun i item => text (i + 1) item)

def Speech.isKept (speech : Speech) : Bool :=
  speech.text != "" && speech.speaker != .none

namespace FourPanel

def speakerText (comic : FourPanel) : Speaker → String
  | .none => ""
  | .character1 => if comic.character1.name = "" then "Character 1" else comic.character1.name
  | .character2 => if comic.character2.name = "" then "Character 2" else comic.character2.name

def speechText (comic : FourPanel) (speech : Speech) : String :=
  "\n      - character: \"" ++ Text.escape (comic.speakerText speech.speaker) ++
    "\"\n        content: \"" ++ Text.escape speech.text ++
    "\"\n        position: " ++ speech.position

def labelText : Nat → String
  | 1 => "introduction"
  | 2 => "development"
  | 3 => "twist"
  | 4 => "conclusion"
  | n => toString n

def narrationText (panel : Panel) : String :=
  if panel.narration = "" then ""
  else "\n    narration: \"" ++ Text.escape panel.narration ++ "\""

def speechesText (comic : FourPanel) (speeches : List Speech) : String :=
  if speeches = [] then ""
  else "\n    speeches:" ++ listText (fun _ => comic.speechText) speeches

def panelText (comic : FourPanel) (number : Nat) (panel : Panel) : String :=
  "\n  - panel: " ++ countText number ++ "\n    label: " ++ labelText number ++
    "\n    prompt: \"" ++ Text.fold panel.scene ++ "\"" ++ narrationText panel ++
    comic.speechesText (panel.speeches.filter Speech.isKept)

def panelsText (comic : FourPanel) : String :=
  "panels:" ++ listText comic.panelText comic.panels ++ "\n"

end FourPanel

namespace Infographic

def sectionText (number : Nat) (part : InfoSection) : String :=
  "\n  - number: " ++ countText number ++ "\n    title: \"" ++ Text.escape part.title ++
    "\"\n    content: \"" ++ Text.escape part.content ++ "\""

def sectionsText (infographic : Infographic) : String :=
  "sections:" ++ listText sectionText
    (infographic.sections.filter fun part => part.title != "" && part.content != "") ++ "\n"

end Infographic

namespace Scene

def characterText (number : Nat) (character : Character) : String :=
  "\n  - slot: " ++ countText number ++ "\n    name: \"" ++ Text.escape character.name ++
    "\"\n    image: \"" ++ Text.escape (Text.fileName character.imagePath) ++
    "\"\n    description: \"" ++ Text.fold character.description ++ "\""

def charactersText (scene : Scene) : String :=
  "characters:" ++ listText characterText
    (scene.characters.filter fun character =>
      character.name != "" || character.imagePath != "") ++ "\n"

end Scene

namespace Template

section Loops

variable {incl : Include} {store : Store} {name : String}

theorem Node.render_loop (collection : String) (body : List Node) :
    Node.render incl (.loop collection body) store =
      renderItems (Node.renderAll incl body) store 0 ((store.getList? collection).getD []) := by
  rw [Node.render]
  cases store.getList? collection <;> rfl

theorem Node.render_when_of_holds (h : store.holds name = true) (body : List Node) :
    Node.render incl (.when name body) store = Node.renderAll incl body store := by
  rw [Node.when, Node.render, h]
  rfl

theorem Node.render_when_of_not_holds (h : store.holds name = false) (body : List Node) :
    Node.render incl (.when name body) store = Rendering.empty := by
  rw [Node.when, Node.render, h]
  rfl

theorem renderItems_mapIdx {α : Type} {body : Store → Rendering} {record : Nat → α → Record}
    {text : Nat → α → String} (start : Nat)
    (h : ∀ i item, body (store.child (record i item) (start + i)) = Rendering.ofText (text i item))
    (items : List α) : renderItems body store start (items.mapIdx record) =
      Rendering.ofText (String.join (items.mapIdx text)) := by
  induction items generalizing start record text with
  | nil => rfl
  | cons item items ih =>
      have hrest : renderItems body store (start + 1) (items.mapIdx fun i => record (i + 1)) =
          Rendering.ofText (String.join (items.mapIdx fun i => text (i + 1))) :=
        ih (start + 1) fun i item => by rw [← h (i + 1) item, Nat.add_right_comm, Nat.add_assoc]
      rw [List.mapIdx_cons, List.mapIdx_cons, renderItems, String.join_cons,
        Rendering.ofText_append, hrest, ← h 0 item, Nat.add_zero]

theorem render_list {α : Type} {collection : String} {body : List Node}
    {record : Nat → α → Record} {text : Nat → α → String} {items : List α}
    (hitems : (store.getList? collection).getD [] = items.mapIdx record)
    (h : ∀ i item, Node.renderAll incl body (store.child (record i item) i) =
      Rendering.ofText (text (i + 1) item)) :
    Node.render incl (.loop collection body) store = Rendering.ofText (listText text items) := by
  rw [Node.render_loop, hitems]
  exact renderItems_mapIdx 0 (fun i item => by rw [Nat.zero_add, h]) items

/-- A list with what stands before and behind it. -/
theorem renderAll_list {α : Type} {collection : String} {body : List Node}
    {record : Nat → α → Record} {text : Nat → α → String} {items : List α} (front back : String)
    (hitems : (store.getList? collection).getD [] = items.mapIdx record)
    (h : ∀ i item, Node.renderAll incl body (store.child (record i item) i) =
      Rendering.ofText (text (i + 1) item)) :
    Node.renderAll incl [.text front, .loop collection body, .text back] store =
      Rendering.ofText (front ++ listText text items ++ back) := by
  rw [Node.renderAll_cons, Node.renderAll_cons, Node.renderAll_singleton, render_list hitems h,
    Node.render, Node.render, ← Rendering.ofText_append, ← Rendering.ofText_append,
    String.append_assoc]

end Loops

end Template

section Fields

variable {item : Record} {name content : String} {value : Value}

theorem ne_indexName (hname : name.toList.head? ≠ some '@') : name ≠ Store.indexName := by
  rintro rfl
  exact hname rfl

theorem ne_placeName (hname : name.toList.head? ≠ some '@') : name ≠ Store.placeName := by
  rintro rfl
  exact hname rfl

theorem Store.get?_child_field (hfield : item.get? name = some value)
    (hname : name.toList.head? ≠ some '@') (store : Store) (i : Nat) :
    (store.child item i).get? name = some value := by
  rw [Store.get?, bindings_get?_child hfield (ne_indexName hname) (ne_placeName hname)]

theorem slotText_value (hname : name.toList.head? ≠ some '@') (hfield : item.get? name = some value)
    (store : Store) (i : Nat) : slotText (store.child item i) name = value.output := by
  rw [slotText, if_neg fun hloop => hname hloop.1, Store.get?_child_field hfield hname store i]
  rfl

theorem slotText_field (hname : name.toList.head? ≠ some '@')
    (hfield : item.get? name = some (.text content)) (store : Store) (i : Nat) :
    slotText (store.child item i) name = content :=
  slotText_value hname hfield store i

theorem holds_field (hname : name.toList.head? ≠ some '@') (hfield : item.get? name = some value)
    (store : Store) (i : Nat) : (store.child item i).holds name = value.isTruthy := by
  rw [Store.holds, Store.get?_child_field hfield hname store i]
  rfl

theorem getList?_field {items : List Record} (hname : name.toList.head? ≠ some '@')
    (hfield : item.get? name = some (.list items)) (store : Store) (i : Nat) :
    (store.child item i).getList? name = some items :=
  Store.getList?_eq_some_iff.2 (Store.get?_child_field hfield hname store i)

/-- A field that the record lacks is looked up outside of the loop. -/
theorem holds_of_free (hname : name.toList.head? ≠ some '@') (hdot : '.' ∉ name.toList)
    (hfield : item.get? name = none) {store : Store} (hstore : store.bindings.get? name = none)
    (i : Nat) : (store.child item i).holds name = false := by
  have hitem : ∀ entry ∈ item.entries, entry.1 ≠ name := by
    intro entry hentry heq
    have hsome := Dict.mem_keys_iff.1 (List.mem_map.2 ⟨entry, hentry, heq⟩)
    rw [hfield] at hsome
    cases hsome
  have hfree : (store.child item i).bindings.get? name = none := by
    show (((store.bindings.insertAll item.entries).insert Store.indexName _).insert
      Store.placeName _).get? name = none
    rw [Dict.get?_insert, if_neg (ne_placeName hname), Dict.get?_insert,
      if_neg (ne_indexName hname), Dict.get?_insertAll_of_forall_ne hitem, hstore]
  rw [Store.holds, Store.get?, hfree]
  simp [hdot]

/-- Both sides stop at the greatest number. -/
theorem output_ofCount (n : Nat) : (Value.ofCount n).output = countText n := by
  have hmin : min (n : Int) Value.greatest = ((min n (Nat.pow 2 63 - 1) : Nat) : Int) := by
    rw [show Value.greatest = ((Nat.pow 2 63 - 1 : Nat) : Int) by decide]
    omega
  rw [Value.ofCount, hmin, countText]
  rfl

theorem slotText_place (store : Store) (item : Record) (i : Nat) :
    slotText (store.child item i) "@index_1" = countText (i + 1) := by
  have hplace : (store.child item i).bindings.get? "@index_1" = some (.ofCount (i + 1)) :=
    (Dict.get?_insert _ Store.placeName Store.placeName _).trans (if_pos rfl)
  have hdepth : (store.child item i).loopDepth ≠ 0 := Nat.succ_ne_zero _
  rw [slotText, if_neg fun hloop => hdepth hloop.2, Store.get?, hplace]
  simp only [Option.map_some, Option.getD_some, output_ofCount]

end Fields

theorem map_eq_mapIdx {α β : Type} (f : α → β) (items : List α) :
    items.map f = items.mapIdx fun _ item => f item :=
  List.ext_getElem (by simp) (by simp)

theorem bne_empty (content : String) : (content != "") = !content.isEmpty := by
  rw [Bool.eq_iff_iff]
  simp

theorem isEmpty_escape (content : String) : (Text.escape content).isEmpty = content.isEmpty := by
  rw [Bool.eq_iff_iff, String.isEmpty_iff, String.isEmpty_iff, ← String.toList_eq_nil_iff,
    ← String.toList_eq_nil_iff, Text.escape, String.toList_ofList]
  cases content.toList with
  | nil => simp [Text.escapeChars]
  | cons c rest =>
      rw [Text.escapeChars]
      split <;> simp

namespace FourPanel

variable (comic : FourPanel)

def speechRecord (speech : Speech) : Record :=
  .ofList
    [Binding.quoted "character" (comic.speakerText speech.speaker),
     Binding.quoted "content" speech.text, Binding.word "position" speech.position]

theorem speechRecord?_eq (speech : Speech) : Binding.speechRecord? comic speech =
    if speech.isKept then some (comic.speechRecord speech) else none := by
  obtain ⟨speaker, text, position⟩ := speech
  by_cases htext : text = ""
  · simp [Binding.speechRecord?, Speech.isKept, htext]
  · cases speaker <;>
      simp [Binding.speechRecord?, Speech.isKept, htext, Binding.speakerName?, speechRecord,
        speakerText, Binding.characterName, String.isEmpty_iff] <;> rfl

theorem filterMap_speechRecord? (speeches : List Speech) :
    speeches.filterMap (Binding.speechRecord? comic) =
      (speeches.filter Speech.isKept).mapIdx fun _ => comic.speechRecord := by
  rw [← map_eq_mapIdx, ← List.filterMap_eq_map, List.filterMap_filter]
  congr 1
  funext speech
  exact comic.speechRecord?_eq speech

theorem panelRecords_eq (i : Nat) (panels : List Panel) :
    Binding.panelRecords comic i panels =
      panels.mapIdx fun k => Binding.panelRecord comic (i + k) := by
  induction panels generalizing i with
  | nil => rfl
  | cons panel panels ih =>
      rw [Binding.panelRecords, ih, List.mapIdx_cons]
      simp only [Nat.add_zero, Nat.add_comm, Nat.add_left_comm]

theorem panelLabel_eq (i : Nat) : Binding.panelLabel i = labelText (i + 1) := by
  match i with
  | 0 | 1 | 2 | 3 => rfl
  | n + 4 => simp [Binding.panelLabel, Binding.panelLabels, labelText]

section Panels

variable (incl : Include) (store : Store)

theorem slotText_speech (speech : Speech) (i : Nat) :
    let inside := store.child (comic.speechRecord speech) i
    slotText inside "character" = Text.escape (comic.speakerText speech.speaker) ∧
      slotText inside "content" = Text.escape speech.text ∧
      slotText inside "position" = speech.position := by
  refine ⟨slotText_field (by decide) ?_ store i,
    slotText_field (by decide) ?_ store i,
    slotText_field (by decide) ?_ store i⟩ <;>
    simp [speechRecord, Dict.ofList, Dict.insertAll, Binding.quoted, Binding.word]

theorem get?_panelRecord (i : Nat) (panel : Panel) :
    let record := Binding.panelRecord comic i panel
    record.get? "panel_number" = some (.ofCount (i + 1)) ∧
      record.get? "label" = some (.text (labelText (i + 1))) ∧
      record.get? "prompt" = some (.text (Text.fold panel.scene)) ∧
      record.get? "speeches" = some (.list
        ((panel.speeches.filter Speech.isKept).mapIdx fun _ => comic.speechRecord)) ∧
      record.get? "narration" =
        if panel.narration = "" then none else some (.text (Text.escape panel.narration)) := by
  intro record
  rw [← panelLabel_eq, ← filterMap_speechRecord?]
  by_cases hnarration : panel.narration = "" <;>
    simp [record, Binding.panelRecord, Dict.ofList, Dict.insertAll, Binding.quoted, Binding.word,
      Binding.folded, hnarration]

/-- The part of the template for panels that a speech is shown by; those for a narration and for a
whole panel come next. -/
def speechNodes : List Node :=
  [.text "\n      - character: \"", .slot "character", .text "\"\n        content: \"",
   .slot "content", .text "\"\n        position: ", .slot "position"]

def narrationNodes : List Node :=
  [.text "\n    narration: \"", .slot "narration", .text "\""]

def panelNodes : List Node :=
  [.text "\n  - panel: ", .slot "panel_number", .text "\n    label: ", .slot "label",
   .text "\n    prompt: \"", .slot "prompt", .text "\"", .when "narration" narrationNodes,
   .when "speeches" [.text "\n    speeches:", .loop "speeches" speechNodes]]

theorem panels_eq :
    Bundled.FourPanel.panels = [.text "panels:", .loop "panels" panelNodes, .text "\n"] := rfl

theorem renderAll_speech (speech : Speech) (i : Nat) :
    Node.renderAll incl speechNodes (store.child (comic.speechRecord speech) i) =
      Rendering.ofText (comic.speechText speech) := by
  obtain ⟨hcharacter, hcontent, hposition⟩ := comic.slotText_speech store speech i
  generalize store.child (comic.speechRecord speech) i = inside at *
  unfold speechText
  simp only [speechNodes, Node.renderAll_cons, Node.renderAll_nil, Node.render, hcharacter,
    hcontent, hposition, Rendering.andThen_empty, ← Rendering.ofText_append, String.append_assoc]

section Inside

variable (i : Nat) (panel : Panel)

theorem render_narration (hstore : store.bindings.get? "narration" = none) :
    Node.render incl (.when "narration" narrationNodes)
      (store.child (Binding.panelRecord comic i panel) i) =
      Rendering.ofText (narrationText panel) := by
  obtain ⟨-, -, -, -, hfield⟩ := comic.get?_panelRecord i panel
  by_cases hnarration : panel.narration = ""
  · -- The record has no such field, so the look-up goes on outside of the loop.
    rw [if_pos hnarration] at hfield
    have hholds := holds_of_free (by decide) (by decide) hfield hstore i
    rw [Node.render_when_of_not_holds hholds, narrationText, if_pos hnarration]
    rfl
  · rw [if_neg hnarration] at hfield
    have hholds := holds_field (by decide) hfield store i
    have hslot := slotText_field (by decide) hfield store i
    rw [Value.isTruthy, isEmpty_escape, String.isEmpty_eq_false_iff.2 hnarration] at hholds
    rw [Node.render_when_of_holds hholds, narrationText, if_neg hnarration]
    generalize store.child (Binding.panelRecord comic i panel) i = inside at *
    simp only [narrationNodes, Node.renderAll_cons, Node.renderAll_nil, Node.render, hslot,
      Rendering.andThen_empty, ← Rendering.ofText_append]
    simp only [String.append_assoc]

theorem render_speeches : Node.render incl
    (.when "speeches" [.text "\n    speeches:", .loop "speeches" speechNodes])
      (store.child (Binding.panelRecord comic i panel) i) =
      Rendering.ofText (comic.speechesText (panel.speeches.filter Speech.isKept)) := by
  obtain ⟨-, -, -, hfield, -⟩ := comic.get?_panelRecord i panel
  have hholds := holds_field (by decide) hfield store i
  have hlist := getList?_field (by decide) hfield store i
  generalize store.child (Binding.panelRecord comic i panel) i = inside at *
  generalize panel.speeches.filter Speech.isKept = speeches at *
  cases speeches with
  | nil =>
      rw [List.mapIdx_nil] at hholds
      rw [Node.render_when_of_not_holds hholds]
      rfl
  | cons speech rest =>
      have hloop : Node.render incl (.loop "speeches" speechNodes) inside =
          Rendering.ofText (listText (fun _ => comic.speechText) (speech :: rest)) :=
        Template.render_list (by rw [hlist]; rfl) fun k speech =>
          comic.renderAll_speech incl inside speech k
      rw [List.mapIdx_cons] at hholds
      rw [Node.render_when_of_holds hholds, speechesText, if_neg (List.cons_ne_nil _ _),
        Node.renderAll_cons, Node.renderAll_singleton, hloop, Node.render,
        ← Rendering.ofText_append]

theorem renderAll_panel (hstore : store.bindings.get? "narration" = none) :
    Node.renderAll incl panelNodes (store.child (Binding.panelRecord comic i panel) i) =
      Rendering.ofText (comic.panelText (i + 1) panel) := by
  obtain ⟨hnumber, hlabel, hprompt, -, -⟩ := comic.get?_panelRecord i panel
  have hnumberText := slotText_value (by decide) hnumber store i
  have hlabelText := slotText_field (by decide) hlabel store i
  have hpromptText := slotText_field (by decide) hprompt store i
  have hnarration := comic.render_narration incl store i panel hstore
  have hspeeches := comic.render_speeches incl store i panel
  rw [output_ofCount] at hnumberText
  generalize store.child (Binding.panelRecord comic i panel) i = inside at *
  unfold panelText
  simp only [panelNodes, Node.renderAll_cons, Node.renderAll_nil, hnarration, hspeeches,
    Node.render, hnumberText, hlabelText, hpromptText, Rendering.andThen_empty,
    ← Rendering.ofText_append, String.append_assoc]

end Inside

theorem renderAll_panels (hstore : store.bindings.get? "narration" = none)
    (hlist : (store.getList? "panels").getD [] = Binding.panelRecords comic 0 comic.panels) :
    Node.renderAll incl Bundled.FourPanel.panels store = Rendering.ofText comic.panelsText := by
  rw [comic.panelRecords_eq] at hlist
  rw [panels_eq]
  refine Template.renderAll_list "panels:" "\n" hlist fun i panel => ?_
  rw [Nat.zero_add]
  exact comic.renderAll_panel incl store i panel hstore

end Panels

end FourPanel

namespace Infographic

def partNodes : List Node :=
  [.text "\n  - number: ", .slot "@index_1", .text "\n    title: \"", .slot "title",
   .text "\"\n    content: \"", .slot "content", .text "\""]

theorem infoSections_eq : Bundled.Infographic.infoSections =
    [.text "sections:", .loop "info_sections" partNodes, .text "\n"] := rfl

def partRecord (part : InfoSection) : Record :=
  .ofList [Binding.quoted "title" part.title, Binding.quoted "content" part.content]

theorem renderAll_part (incl : Include) (store : Store) (i : Nat) (part : InfoSection) :
    Node.renderAll incl partNodes (store.child (partRecord part) i) =
      Rendering.ofText (sectionText (i + 1) part) := by
  have htitle : (partRecord part).get? "title" = some (.text (Text.escape part.title)) := by
    simp [partRecord, Dict.ofList, Dict.insertAll, Binding.quoted]
  have hcontent : (partRecord part).get? "content" = some (.text (Text.escape part.content)) := by
    simp [partRecord, Dict.ofList, Dict.insertAll, Binding.quoted]
  have hnumberText := slotText_place store (partRecord part) i
  have htitleText := slotText_field (by decide) htitle store i
  have hcontentText := slotText_field (by decide) hcontent store i
  generalize store.child (partRecord part) i = inside at *
  unfold sectionText
  simp only [partNodes, Node.renderAll_cons, Node.renderAll_nil, Node.render, hnumberText,
    htitleText, hcontentText, Rendering.andThen_empty, ← Rendering.ofText_append,
    String.append_assoc]

theorem renderAll_sections (infographic : Infographic) (incl : Include) (store : Store)
    (hlist : (store.getList? "info_sections").getD [] = Binding.infoSections infographic) :
    Node.renderAll incl Bundled.Infographic.infoSections store =
      Rendering.ofText infographic.sectionsText := by
  have hrecords : Binding.infoSections infographic = (infographic.sections.filter fun part =>
      part.title != "" && part.content != "").mapIdx fun _ => partRecord := by
    rw [← map_eq_mapIdx]
    simp only [bne_empty]
    rfl
  rw [infoSections_eq]
  exact Template.renderAll_list "sections:" "\n" (hlist.trans hrecords) (renderAll_part incl store)

end Infographic

namespace Scene

def characterNodes : List Node :=
  [.text "\n  - slot: ", .slot "@index_1", .text "\n    name: \"", .slot "name",
   .text "\"\n    image: \"", .slot "image", .text "\"\n    description: \"",
   .slot "description", .text "\""]

theorem characters_eq : Bundled.SceneBuilder.characters =
    [.text "characters:", .loop "characters" characterNodes, .text "\n"] := rfl

theorem renderAll_character (incl : Include) (store : Store) (i : Nat) (character : Character) :
    Node.renderAll incl characterNodes (store.child (Binding.sceneCharacter character) i) =
      Rendering.ofText (characterText (i + 1) character) := by
  obtain ⟨hname, himage, hdescription⟩ :
      (Binding.sceneCharacter character).get? "name" =
          some (.text (Text.escape character.name)) ∧
        (Binding.sceneCharacter character).get? "image" =
          some (.text (Text.escape (Text.fileName character.imagePath))) ∧
        (Binding.sceneCharacter character).get? "description" =
          some (.text (Text.fold character.description)) := by
    simp [Binding.sceneCharacter, Dict.ofList, Dict.insertAll, Binding.quoted, Binding.folded]
  have hslotText := slotText_place store (Binding.sceneCharacter character) i
  have hnameText := slotText_field (by decide) hname store i
  have himageText := slotText_field (by decide) himage store i
  have hdescriptionText := slotText_field (by decide) hdescription store i
  generalize store.child (Binding.sceneCharacter character) i = inside at *
  unfold characterText
  simp only [characterNodes, Node.renderAll_cons, Node.renderAll_nil, Node.render, hslotText,
    hnameText, himageText, hdescriptionText, Rendering.andThen_empty, ← Rendering.ofText_append,
    String.append_assoc]

theorem renderAll_characters (scene : Scene) (incl : Include) (store : Store)
    (hlist : (store.getList? "characters").getD [] = Binding.sceneCharacters scene) :
    Node.renderAll incl Bundled.SceneBuilder.characters store =
      Rendering.ofText scene.charactersText := by
  have hrecords : Binding.sceneCharacters scene = (scene.characters.filter fun character =>
      character.name != "" || character.imagePath != "").mapIdx fun _ =>
        Binding.sceneCharacter := by
    rw [← map_eq_mapIdx]
    simp only [bne_empty]
    rfl
  rw [characters_eq]
  exact Template.renderAll_list "characters:" "\n" (hlist.trans hrecords)
    (renderAll_character incl store)

end Scene

end PromptSheet
