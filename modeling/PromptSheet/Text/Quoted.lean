import PromptSheet.Text.Blank
import PromptSheet.Text.Line

/-!
Text inside a double-quoted scalar: a backslash and a quote are written with a backslash before
them, all else stands for itself. A description of several lines is first folded into one line.
-/

namespace PromptSheet.Text

def escapeChars : List Char → List Char
  | [] => []
  | c :: rest =>
    if c = '\\' ∨ c = '"' then '\\' :: c :: escapeChars rest else c :: escapeChars rest

def escape (s : String) : String :=
  String.ofList (escapeChars s.toList)

def keptLines (s : List Char) : List (List Char) :=
  ((lines s).map trim).filter (fun line => !line.isEmpty)

/-- The kept lines in one line, a comma and a space between them, ready for a quoted scalar. -/
def fold (s : String) : String :=
  String.ofList (escapeChars (joinWith [',', ' '] (keptLines s.toList)))

end PromptSheet.Text
