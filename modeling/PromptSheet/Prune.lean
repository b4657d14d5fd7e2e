import PromptSheet.Text.Blank
import PromptSheet.Text.Line

/-!
Pruning a document. An optional setting that was left out shows as `key: ""`; such lines go, and
with them every header below which nothing but such lines stands. Runs of blank lines that this
leaves are closed up to one blank line.
-/

namespace PromptSheet.Prune

abbrev Line := List Char

def isBlankLine (line : Line) : Bool :=
  (Text.trim line).isEmpty

def isRemark (line : Line) : Bool :=
  match Text.trim line with
  | [] => true
  | c :: _ => c == '#'

def isEmptyValue (line : Line) : Bool :=
  [':', ' ', '"', '"'].isSuffixOf (Text.trim line) ||
    [':', ' ', '\'', '\''].isSuffixOf (Text.trim line)

/-- The width of the blanks that a line starts with; a tab is two columns wide. -/
def indent : Line → Nat
  | ' ' :: rest => indent rest + 1
  | '\t' :: rest => indent rest + 2
  | _ => 0

def hasColonSpace : Line → Bool
  | ':' :: ' ' :: _ => true
  | _ :: rest => hasColonSpace rest
  | [] => false

def isBareKey (line : Line) : Bool :=
  [':'].isSuffixOf (Text.trim line) && !hasColonSpace (Text.trim line)

/-- A line that other lines may belong to: a bare key, or a line with a deeper line right below it.
-/
def isHeader (line : Line) (below : List Line) : Bool :=
  !isRemark line &&
    (isBareKey line ||
      match below with
      | [] => false
      | next :: _ => !isRemark next && indent line < indent next)

/-- Whether one of the lines that belong to a header of this width has a value. The lines that
belong to it end at the first line that is not deeper. -/
def hasLiveLine (width : Nat) : List Line → Bool
  | [] => false
  | line :: below =>
    if isRemark line then hasLiveLine width below
    else if indent line ≤ width then false
    else if isEmptyValue line then hasLiveLine width below
    else true

def stays (line : Line) (below : List Line) : Bool :=
  !isEmptyValue line && (!isHeader line below || hasLiveLine (indent line) below)

def liveLines : List Line → List Line
  | [] => []
  | line :: below => if stays line below then line :: liveLines below else liveLines below

def closeGaps (afterBlank : Bool) : List Line → List Line
  | [] => []
  | line :: below =>
    if isBlankLine line && afterBlank then closeGaps true below
    else line :: closeGaps (isBlankLine line) below

def pruneLines (document : List Line) : List Line :=
  closeGaps false (liveLines document)

end PromptSheet.Prune

namespace PromptSheet

def prune (document : String) : String :=
  String.ofList (Text.joinWith ['\n'] (Prune.pruneLines (Text.splitOn '\n' document.toList)))

end PromptSheet
