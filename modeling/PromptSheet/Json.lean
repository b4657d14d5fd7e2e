import PromptSheet.Number.Real

/-!
JSON documents as trees. The members of an object are kept in the order of the text, repetitions
included; what a repetition means is for the reader of the tree to say.
-/

namespace PromptSheet

inductive Json where
  | null
  | flag (on : Bool)
  | number (value : Number)
  | text (content : String)
  | list (items : List Json)
  | object (members : List (String × Json))
  /-- What is in good form but stands for nothing: a number beyond all doubles, a text with half a
  surrogate pair, or an object with such a name. -/
  | unfit

instance : Inhabited Json := ⟨.null⟩

end PromptSheet
