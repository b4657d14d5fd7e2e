import PromptSheet.Template.Node

/-!
Writing a tree as the text of a template, each node in its plainest form: nothing is padded, and
every block is closed by the word that opened it.
-/

namespace PromptSheet.Template

def braced (content : List Char) : List Char :=
  ['{', '{'] ++ content ++ ['}', '}']

def conditionWord (negated : Bool) : List Char :=
  if negated then ['u', 'n', 'l', 'e', 's', 's'] else ['i', 'f']

def printParameter (parameter : String × String) : List Char :=
  ' ' :: parameter.1.toList ++ ['=', '"'] ++ parameter.2.toList ++ ['"']

namespace Node

mutual

def print : Node → List Char
  | .text content => content.toList
  | .slot name => braced name.toList
  | .rawSlot name => braced (['{'] ++ name.toList ++ ['}'])
  | .comment content => braced (['!', ' '] ++ content.toList)
  | .inclusion name parameters =>
    braced (['>', ' '] ++ name.toList ++ parameters.flatMap printParameter)
  | .loop collection body =>
    braced (['#', 'e', 'a', 'c', 'h', ' '] ++ collection.toList) ++ printAll body ++
      braced ['/', 'e', 'a', 'c', 'h']
  | .condition expression negated body none =>
    braced (['#'] ++ conditionWord negated ++ [' '] ++ expression.toList) ++ printAll body ++
      braced (['/'] ++ conditionWord negated)
  | .condition expression negated body (some other) =>
    braced (['#'] ++ conditionWord negated ++ [' '] ++ expression.toList) ++ printAll body ++
      braced ['e', 'l', 's', 'e'] ++ printAll other ++ braced (['/'] ++ conditionWord negated)

def printAll : List Node → List Char
  | [] => []
  | node :: rest => print node ++ printAll rest

end

end Node

def print (nodes : List Node) : String :=
  String.ofList (Node.printAll nodes)

end PromptSheet.Template
