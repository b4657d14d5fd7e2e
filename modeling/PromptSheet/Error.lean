import PromptSheet.Template.Tag

/-!
The causes for which a document is not made, and what is said about each.
-/

namespace PromptSheet

inductive CatalogDocument where
  | master
  | selection
deriving DecidableEq, Repr

def CatalogDocument.fileName : CatalogDocument → String
  | .master => "MasterTemplate.yaml"
  | .selection => "SelectionMap.yaml"

inductive Error where
  | fileNotFound (path : String)
  | unreadable (path : String)
  | invalid (document : CatalogDocument)
  /-- A template, or one that it includes, is no template; the name is that of the outermost one. -/
  | parse (name : String) (cause : Template.ParseError)
  | unknownOutputType (name : String)
  | unknownSection (name : String)
  | templateNotFound (name : String)
deriving DecidableEq, Repr

namespace Error

def message : Error → String
  | .fileNotFound path => "catalog document not found: " ++ path
  | .unreadable path => "failed to read " ++ path
  | .invalid document => "invalid " ++ document.fileName
  | .parse name cause => "failed to parse `" ++ name ++ "`: " ++ cause.message
  | .unknownOutputType name => "unknown output type: " ++ name
  | .unknownSection name => "unknown section: " ++ name
  | .templateNotFound name => "template not found: " ++ name

/-- The error and its cause. What is wrong with a template is said with the error, and then once
more as the cause of it. -/
def chain (e : Error) : List String :=
  match e with
  | .parse _ cause => [e.message, cause.message]
  | _ => [e.message]

end Error

end PromptSheet
