import PromptSheet.Binding.Shared

/-!
The bindings of single pictures: scenes, backgrounds, decorative texts, transformed pictures and
infographics. Characters without a name and a picture, and sections that are only half filled in,
are left out.
-/

namespace PromptSheet.Binding

def sceneCharacter (character : Character) : Record :=
  .ofList
    [quoted "name" character.name,
     quoted "image" (Text.fileName character.imagePath),
     folded "description" character.description]

def sceneCharacters (scene : Scene) : List Record :=
  (scene.characters.filter isCharacterGiven).map sceneCharacter

def sceneEntries (scene : Scene) : List Entry :=
  [word "scene_type" scene.sceneType.name] ++
  image "background_image_path" scene.backgroundImagePath ++
  unlessBlank (folded "scene_description" scene.sceneDescription) ++
  [("character_count", .ofCount (sceneCharacters scene).length),
   ("characters", .list (sceneCharacters scene))] ++
  unlessBlank (quoted "narration" scene.narration)

def sceneBuilder (state : State) : Store :=
  withBlock state.sceneBuilder sceneEntries state

def backgroundEntries (background : Background) : List Entry :=
  [flag "use_reference" background.usesReference] ++
  (if background.usesReference then
    [quoted "reference_image_path" (Text.fileName background.referenceImagePath)]
  else []) ++
  [quoted "background_description" background.description]

def background (state : State) : Store :=
  withBlock state.background backgroundEntries state

def decorativeTextEntries (lettering : DecorativeText) : List Entry :=
  [quoted "text_content" lettering.text,
   word "text_type" lettering.textType,
   flag "transparent_background" lettering.transparentBackground]

def decorativeText (state : State) : Store :=
  withBlock state.decorativeText decorativeTextEntries state

def styleTransformEntries (transform : StyleTransform) : List Entry :=
  image "source_image_path" transform.sourceImagePath ++
  [word "transform_type" transform.transformType,
   flag "transparent_background" transform.transparentBackground,
   word "output_background" (if transform.transparentBackground then "transparent" else "white")]

def styleTransform (state : State) : Store :=
  withBlock state.styleTransform styleTransformEntries state

def infoSections (infographic : Infographic) : List Record :=
  (infographic.sections.filter fun part => !part.title.isEmpty && !part.content.isEmpty).map
    fun part => .ofList [quoted "title" part.title, quoted "content" part.content]

def infographicEntries (infographic : Infographic) : List Entry :=
  [word "infographic_style" infographic.infographicStyle,
   word "output_language" infographic.outputLanguage,
   quoted "main_title" infographic.mainTitle,
   quoted "subtitle" infographic.subtitle] ++
  image "main_character_image_path" infographic.mainCharacterImagePath ++
  [flag "sub_character_enabled" (!(Text.fileName infographic.subCharacterImagePath).isEmpty)] ++
  image "sub_character_image_path" infographic.subCharacterImagePath ++
  [("info_sections", .list (infoSections infographic))]

def infographic (state : State) : Store :=
  withBlock state.infographic infographicEntries state

end PromptSheet.Binding
