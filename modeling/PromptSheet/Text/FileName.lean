import PromptSheet.Text.Line

/-!
The last component of a slash-separated path. Empty components and the component `.` name nothing
and are passed over, so `a/`, `a//` and `a/.` all end in `a`; a path that ends in `..` has no file
name.
-/

namespace PromptSheet.Text

def pathComponents (path : String) : List (List Char) :=
  (splitOn '/' path.toList).filter (fun part => !part.isEmpty && part != ['.'])

/-- Empty when the path has no file name. -/
def fileName (path : String) : String :=
  match (pathComponents path).getLast? with
  | none => ""
  | some part => if part = ['.', '.'] then "" else String.ofList part

/-- What follows the last dot of a file name, if something stands before the dot. -/
def extension? (path : String) : Option String :=
  match (splitOn '.' (fileName path).toList).reverse with
  | last :: first :: more =>
    if first.isEmpty && more.isEmpty then none else some (String.ofList last)
  | _ => none

end PromptSheet.Text
