import PromptSheet.State
import PromptSheet.Store
import PromptSheet.Text.FileName
import PromptSheet.Text.Quoted

/-!
From a state to the store that a document is rendered against. This module has the names that every
kind of document binds, and the few ways in which a setting becomes an entry. `quoted` and `folded`
escape a text for a place between quotes, `word` binds it as it stands. Settings that may be left
out bind nothing when they hold only blanks.
-/

namespace PromptSheet.Binding

abbrev Entry := String × Value

def word (name content : String) : Entry :=
  (name, .text content)

def flag (name : String) (on : Bool) : Entry :=
  (name, .flag on)

/-- A text to be put between quotes. -/
def quoted (name content : String) : Entry :=
  (name, .text (Text.escape content))

/-- A text of several lines, to be put between quotes in one. -/
def folded (name content : String) : Entry :=
  (name, .text (Text.fold content))

def isBlankText (content : String) : Bool :=
  (Text.trim content.toList).isEmpty

def unlessBlank : Entry → List Entry
  | (name, .text content) => if isBlankText content then [] else [(name, .text content)]
  | entry => [entry]

/-- The file name of a path, nothing when it has none. -/
def image (name path : String) : List Entry :=
  if (Text.fileName path).isEmpty then [] else [quoted name (Text.fileName path)]

def trimText (content : String) : String :=
  String.ofList (Text.trim content.toList)

def sharedEntries (state : State) : List Entry :=
  [quoted "title" state.title] ++
  (if isBlankText state.author then [] else [quoted "author" (trimText state.author)]) ++
  [word "color_mode" state.colorMode.name, flag "is_duotone" state.colorMode.isDuotone] ++
  (if state.colorMode.isDuotone then [word "duotone_style" state.duotoneColor.prompt] else []) ++
  [word "output_style" state.outputStyle.name,
   word "aspect_ratio" state.aspectRatio.name,
   flag "title_overlay_enabled" state.includeTitleInImage]

def shared (state : State) : Store :=
  Store.ofList (sharedEntries state)

def withBlock {α : Type} (block : Option α) (entries : α → List Entry) (state : State) : Store :=
  match block with
  | none => shared state
  | some settings => (shared state).setAll (entries settings)

def isCharacterGiven (character : Character) : Bool :=
  !character.name.isEmpty || !character.imagePath.isEmpty

def styleEntries (style : OutputStyle) : List Entry :=
  [word "style_info_style" style.info.style,
   word "style_info_proportions" style.info.proportions,
   word "style_info_description" style.info.description]

end PromptSheet.Binding
