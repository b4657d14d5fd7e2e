/-!
What goes into the log while a document is made. None of it stops the work.
-/

namespace PromptSheet

inductive Warning where
  /-- A listed section that neither its output type nor the common table defines. -/
  | sectionNotFound (name outputType selectionKey : String)
  | templateNotFound (name : String)
  | tooDeep (name : String) (limit : Nat)
  | templateUnreadable (name : String)
deriving DecidableEq, Repr

def Warning.message : Warning → String
  | .sectionNotFound _ _ _ => "section not found, skipping"
  | .templateNotFound _ => "partial not found"
  | .tooDeep _ _ => "partial nesting too deep, rendering empty"
  | .templateUnreadable _ => "partial could not be read"

end PromptSheet
