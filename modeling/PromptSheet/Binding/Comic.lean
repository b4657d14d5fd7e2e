import PromptSheet.Binding.Shared

/-!
The bindings of a comic of four panels. Nothing keeps a user from giving more or fewer: the first
four panels have a label of their own and later ones are labelled by their number. A speech without
text or without a speaker is left out.
-/

namespace PromptSheet.Binding

def panelLabels : List String := ["introduction", "development", "twist", "conclusion"]

def panelLabel (i : Nat) : String :=
  (panelLabels[i]?).getD (toString (i + 1))

/-- The name of the character with this number, which stands in for a name that is missing. -/
def characterName (slot : Nat) (character : Character) : String :=
  if character.name.isEmpty then "Character " ++ toString slot else character.name

def speakerName? (comic : FourPanel) : Speaker → Option String
  | .none => none
  | .character1 => some (characterName 1 comic.character1)
  | .character2 => some (characterName 2 comic.character2)

def characterReference (slot : Nat) (character : Character) : String :=
  let file := Text.fileName character.imagePath
  let attached := "see attached image " ++ toString slot
  if file.isEmpty then attached else attached ++ " (" ++ file ++ ")"

def comicCharacter (slot : Nat) (character : Character) : List Record :=
  if isCharacterGiven character then
    [.ofList
      [quoted "name" (characterName slot character),
       word "reference" (characterReference slot character),
       folded "description" character.description]]
  else []

def speechRecord? (comic : FourPanel) (speech : Speech) : Option Record :=
  if speech.text.isEmpty then none
  else
    (speakerName? comic speech.speaker).map fun name =>
      .ofList
        [quoted "character" name, quoted "content" speech.text, word "position" speech.position]

def panelRecord (comic : FourPanel) (i : Nat) (panel : Panel) : Record :=
  .ofList
    ([("panel_number", .ofCount (i + 1)),
      word "label" (panelLabel i),
      folded "prompt" panel.scene,
      ("speeches", .list (panel.speeches.filterMap (speechRecord? comic)))] ++
    if panel.narration.isEmpty then [] else [quoted "narration" panel.narration])

def panelRecords (comic : FourPanel) : Nat → List Panel → List Record
  | _, [] => []
  | i, panel :: rest => panelRecord comic i panel :: panelRecords comic (i + 1) rest

def fourPanelEntries (comic : FourPanel) : List Entry :=
  [("characters", .list (comicCharacter 1 comic.character1 ++ comicCharacter 2 comic.character2)),
   ("panel_count", .ofCount comic.panels.length),
   ("panels", .list (panelRecords comic 0 comic.panels))]

def fourPanel (state : State) : Store :=
  withBlock state.fourPanel fourPanelEntries state

end PromptSheet.Binding
