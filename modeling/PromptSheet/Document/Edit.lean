import PromptSheet.Json

/-!
Changes to a JSON document that its reader need not notice. A reader that knows the shape of a
document knows which fields its records have and what each of them is worth when it is left out. So
a field with just this worth may go, and a field with another name may come, in any record at any
depth.
-/

namespace PromptSheet

/-- What the reader of a document expects. -/
inductive Shape where
  /-- A text, a flag, a choice: nothing in it can be left out. -/
  | plain
  /-- What is not there is null. -/
  | optional (inner : Shape)
  | list (item : Shape)
  /-- Each field has a name, the value that it has when it is left out, and a shape. -/
  | record (fields : List (String × Json × Shape))

/-- One field left out or added somewhere in a document of this shape. -/
inductive Edit : Shape → Json → Json → Prop where
  | leaveOut {fields : List (String × Json × Shape)} {before after : List (String × Json)}
      {name : String} {blank : Json} {inner : Shape} (hfield : (name, blank, inner) ∈ fields) :
      Edit (.record fields) (.object (before ++ (name, blank) :: after)) (.object (before ++ after))
  | add {fields : List (String × Json × Shape)} {before after : List (String × Json)} {name : String}
      {content : Json} (hname : ∀ field ∈ fields, field.1 ≠ name) :
      Edit (.record fields) (.object (before ++ after)) (.object (before ++ (name, content) :: after))
  | member {fields : List (String × Json × Shape)} {before after : List (String × Json)}
      {name : String} {blank document edited : Json} {inner : Shape}
      (hfield : (name, blank, inner) ∈ fields) (hedit : Edit inner document edited) :
      Edit (.record fields) (.object (before ++ (name, document) :: after))
        (.object (before ++ (name, edited) :: after))
  | item {inner : Shape} {before after : List Json} {document edited : Json}
      (hedit : Edit inner document edited) :
      Edit (.list inner) (.list (before ++ document :: after)) (.list (before ++ edited :: after))
  | present {inner : Shape} {document edited : Json} (hedit : Edit inner document edited) :
      Edit (.optional inner) document edited

end PromptSheet
