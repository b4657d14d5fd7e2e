/-!
Texts cut at a separator. `splitOn` keeps every piece, also the empty ones, and `joinWith` puts them
back together; `lines` reads a text as a sequence of lines that a newline *ends*, so that a final
newline opens no further line and a carriage return before a newline belongs to the line's end.
-/

namespace PromptSheet.Text

def splitOn (sep : Char) : List Char → List (List Char)
  | [] => [[]]
  | c :: rest =>
    if c = sep then [] :: splitOn sep rest
    else
      match splitOn sep rest with
      | [] => [[c]]
      | piece :: pieces => (c :: piece) :: pieces

def joinWith (sep : List Char) : List (List Char) → List Char
  | [] => []
  | [piece] => piece
  | piece :: pieces => piece ++ sep ++ joinWith sep pieces

def dropReturn (line : List Char) : List Char :=
  match line.reverse with
  | '\r' :: rest => rest.reverse
  | _ => line

/-- Ended lines lose their carriage return; a last line without a newline is kept as it stands, and
is no line at all when it is empty. -/
def linesOfPieces : List (List Char) → List (List Char)
  | [] => []
  | [last] => if last.isEmpty then [] else [last]
  | piece :: pieces => dropReturn piece :: linesOfPieces pieces

def lines (s : List Char) : List (List Char) :=
  linesOfPieces (splitOn '\n' s)

def countNewlines (s : List Char) : Nat :=
  s.count '\n'

theorem splitOn_ne_nil (sep : Char) (s : List Char) : splitOn sep s ≠ [] := by
  induction s with
  | nil => simp [splitOn]
  | cons c rest ih =>
    by_cases h : c = sep
    · simp [splitOn, h]
    · simp only [splitOn, h, if_false]
      split <;> simp

theorem joinWith_splitOn (sep : Char) (s : List Char) : joinWith [sep] (splitOn sep s) = s := by
  induction s with
  | nil => rfl
  | cons c rest ih =>
    obtain ⟨piece, pieces, hsplit⟩ := List.exists_cons_of_ne_nil (splitOn_ne_nil sep rest)
    rw [hsplit] at ih
    by_cases h : c = sep
    · simp [splitOn, h, hsplit, joinWith, ih]
    · cases pieces <;> simp_all [splitOn, joinWith]

end PromptSheet.Text
