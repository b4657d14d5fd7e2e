/-!
What a user has entered: the settings that every document shares and, for each kind of document, a
block of its own that may be missing. The default values are those of a setting nobody has touched.
-/

namespace PromptSheet

inductive ColorMode where
  | fullcolor
  | monochrome
  | sepia
  | duotone
deriving DecidableEq, Repr, Inhabited

inductive DuotoneColor where
  | redBlack
  | blueBlack
  | greenBlack
  | purpleBlack
  | orangeBlack
deriving DecidableEq, Repr, Inhabited

inductive OutputStyle where
  | anime
  | pixelArt
  | chibi
  | realistic
  | watercolor
  | oilPainting
deriving DecidableEq, Repr, Inhabited

inductive AspectRatio where
  | square
  | wide16x9
  | tall9x16
  | standard4x3
  | portrait3x4
  | ultraWide3x1
deriving DecidableEq, Repr, Inhabited

inductive SceneType where
  | story
  | battle
  | bossRaid
deriving DecidableEq, Repr, Inhabited

inductive Speaker where
  | none
  | character1
  | character2
deriving DecidableEq, Repr, Inhabited

namespace ColorMode

def all : List ColorMode := [fullcolor, monochrome, sepia, duotone]

def name : ColorMode → String
  | fullcolor => "fullcolor"
  | monochrome => "monochrome"
  | sepia => "sepia"
  | duotone => "duotone"

def isDuotone (mode : ColorMode) : Bool :=
  mode == duotone

end ColorMode

namespace DuotoneColor

def all : List DuotoneColor := [redBlack, blueBlack, greenBlack, purpleBlack, orangeBlack]

def name : DuotoneColor → String
  | redBlack => "red_black"
  | blueBlack => "blue_black"
  | greenBlack => "green_black"
  | purpleBlack => "purple_black"
  | orangeBlack => "orange_black"

def prompt : DuotoneColor → String
  | redBlack => "red and black duotone, two-color print, manga style"
  | blueBlack => "blue and black duotone, two-color print, manga style"
  | greenBlack => "green and black duotone, two-color print, manga style"
  | purpleBlack => "purple and black duotone, two-color print, manga style"
  | orangeBlack => "orange and black duotone, two-color print, manga style"

end DuotoneColor

structure StyleInfo where
  style : String
  proportions : String
  description : String
deriving DecidableEq, Repr

namespace OutputStyle

def all : List OutputStyle := [anime, pixelArt, chibi, realistic, watercolor, oilPainting]

def name : OutputStyle → String
  | anime => "anime"
  | pixelArt => "pixel_art"
  | chibi => "chibi"
  | realistic => "realistic"
  | watercolor => "watercolor"
  | oilPainting => "oil_painting"

def info : OutputStyle → StyleInfo
  | anime =>
    { style := "Japanese anime style"
      proportions := "standard anime proportions, about 7 heads tall"
      description := "clean cel shading, crisp linework, vivid colors" }
  | pixelArt =>
    { style := "pixel art"
      proportions := "sprite proportions, about 3 heads tall"
      description := "limited palette, hard pixel edges, no anti-aliasing" }
  | chibi =>
    { style := "chibi, super deformed"
      proportions := "2 heads tall, big head, small body"
      description := "round soft shapes, simplified features, cute expression" }
  | realistic =>
    { style := "realistic illustration"
      proportions := "realistic human proportions, about 8 heads tall"
      description := "natural lighting, detailed textures, photographic depth" }
  | watercolor =>
    { style := "watercolor painting"
      proportions := "standard illustration proportions"
      description := "soft washes, bleeding edges, paper texture" }
  | oilPainting =>
    { style := "oil painting"
      proportions := "classical painting proportions"
      description := "thick brush strokes, rich color layering, canvas texture" }

end OutputStyle

namespace AspectRatio

def all : List AspectRatio := [square, wide16x9, tall9x16, standard4x3, portrait3x4, ultraWide3x1]

def name : AspectRatio → String
  | square => "1:1"
  | wide16x9 => "16:9"
  | tall9x16 => "9:16"
  | standard4x3 => "4:3"
  | portrait3x4 => "3:4"
  | ultraWide3x1 => "3:1"

end AspectRatio

namespace SceneType

def all : List SceneType := [story, battle, bossRaid]

def name : SceneType → String
  | story => "story"
  | battle => "battle"
  | bossRaid => "boss_raid"

end SceneType

namespace Speaker

def all : List Speaker := [none, character1, character2]

def name : Speaker → String
  | none => "none"
  | character1 => "character1"
  | character2 => "character2"

end Speaker

structure FaceSheet where
  characterName : String := ""
  appearanceDescription : String := ""
  referenceImagePath : String := ""
deriving DecidableEq, Repr

structure BodySheet where
  faceSheetImagePath : String := ""
  bodyType : String := "female_standard"
  bustFeature : String := "auto"
  renderType : String := "silhouette"
  additionalDescription : String := ""
deriving DecidableEq, Repr

/-- An outfit is built from presets, or taken from a picture when the builder is off. -/
structure Outfit where
  bodySheetImagePath : String := ""
  useOutfitBuilder : Bool := true
  referenceOutfitImagePath : String := ""
  fitMode : String := "base_body"
  includeHeadwear : Bool := true
  referenceDescription : String := ""
  outfitCategory : String := "casual"
  outfitShape : String := "t-shirt and jeans"
  outfitColor : String := "auto"
  outfitPattern : String := "solid"
  outfitStyle : String := "auto"
  additionalDescription : String := ""
deriving DecidableEq, Repr

/-- A pose is a preset, or taken from a picture when capture is on. -/
structure Pose where
  outfitSheetImagePath : String := ""
  usePoseCapture : Bool := false
  poseReferenceImagePath : String := ""
  preset : String := "standing"
  eyeLine : String := "front"
  expression : String := "neutral"
  expressionDetail : String := ""
  actionDescription : String := ""
  includeEffects : Bool := false
  transparentBackground : Bool := false
  windEffect : String := "none"
deriving DecidableEq, Repr

structure Character where
  name : String := ""
  imagePath : String := ""
  description : String := ""
deriving DecidableEq, Repr

structure Scene where
  sceneType : SceneType := .story
  backgroundImagePath : String := ""
  sceneDescription : String := ""
  characters : List Character := []
  narration : String := ""
deriving DecidableEq, Repr

structure Background where
  useReferenceImage : Bool := false
  referenceImagePath : String := ""
  description : String := ""
deriving DecidableEq, Repr

/-- A reference that is switched on but not given is no reference. -/
def Background.usesReference (background : Background) : Bool :=
  background.useReferenceImage && !background.referenceImagePath.isEmpty

structure DecorativeText where
  text : String := ""
  textType : String := "skill_name"
  transparentBackground : Bool := true
deriving DecidableEq, Repr

structure Speech where
  speaker : Speaker := .none
  text : String := ""
  position : String := "right"
deriving DecidableEq, Repr

structure Panel where
  scene : String := ""
  speeches : List Speech := []
  narration : String := ""
deriving DecidableEq, Repr

structure FourPanel where
  character1 : Character := {}
  character2 : Character := {}
  panels : List Panel := []
deriving DecidableEq, Repr

structure StyleTransform where
  sourceImagePath : String := ""
  transformType : String := "chibi"
  transparentBackground : Bool := false
deriving DecidableEq, Repr

structure InfoSection where
  title : String := ""
  content : String := ""
deriving DecidableEq, Repr

structure Infographic where
  infographicStyle : String := "graphic_recording"
  outputLanguage : String := "english"
  mainTitle : String := ""
  subtitle : String := ""
  mainCharacterImagePath : String := ""
  subCharacterImagePath : String := ""
  sections : List InfoSection := []
deriving DecidableEq, Repr

structure State where
  title : String := ""
  author : String := ""
  colorMode : ColorMode := .fullcolor
  duotoneColor : DuotoneColor := .redBlack
  outputStyle : OutputStyle := .anime
  aspectRatio : AspectRatio := .square
  includeTitleInImage : Bool := false
  faceSheet : Option FaceSheet := none
  bodySheet : Option BodySheet := none
  outfit : Option Outfit := none
  pose : Option Pose := none
  sceneBuilder : Option Scene := none
  background : Option Background := none
  decorativeText : Option DecorativeText := none
  fourPanel : Option FourPanel := none
  styleTransform : Option StyleTransform := none
  infographic : Option Infographic := none
deriving DecidableEq, Repr

end PromptSheet
