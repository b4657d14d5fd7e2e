import PromptSheet.Yaml.Token

/-!
The node tree of a YAML text. An alias is a leaf that names its target by a number; the targets are
kept beside the tree, since a node may contain an alias of itself. Numbers are given out by how many
different anchor names have been met, so a name that is used again takes the number which the next
new name will take as well; the node that came last under a number is the target.
-/

namespace PromptSheet.Yaml

inductive Node where
  | scalar (text : String) (style : Style) (tag : Option Tag)
  | sequence (items : List Node) (tag : Option Tag)
  | mapping (entries : List (Node × Node)) (tag : Option Tag)
  | alias (number : Nat)

instance : Inhabited Node := ⟨.alias 0⟩

/-- The scalar that stands where a node is left out. -/
def Node.blank : Node :=
  .scalar "" .plain none

/-- A text has at most one document; an empty text has none, which is not the same as an empty one.
-/
structure Document where
  root : Option Node
  /-- The targets of the aliases, the latest first. -/
  targets : List (Nat × Node) := []
  /-- The number of scalars, aliases, and starts and ends of collections. -/
  size : Nat := 0

structure Builder where
  tokens : List Token
  /-- The starts of the tags with each handle. -/
  handles : List (List Char × List UInt8) := []
  names : List (List Char × Nat) := []
  /-- For each number the anchored node that started last, counted from the first anchored node. -/
  slots : List (Nat × Nat) := []
  started : Nat := 0
  finished : List (Nat × Node) := []
  size : Nat := 0

namespace Builder

def drop (b : Builder) : Builder :=
  { b with tokens := b.tokens.tail }

def count (b : Builder) (n : Nat) : Builder :=
  { b with size := b.size + n }

def startAnchor (b : Builder) (name : List Char) : Builder :=
  let number := b.names.length
  { b with
    names := (name, number) :: b.names.filter fun entry => entry.1 != name
    slots := (number, b.started) :: b.slots
    started := b.started + 1 }

def finishAnchor (b : Builder) (start : Nat) (node : Node) : Builder :=
  { b with finished := (start, node) :: b.finished }

def targets (b : Builder) : List (Nat × Node) :=
  b.slots.filterMap fun (number, start) => (b.finished.lookup start).map fun node => (number, node)

structure Properties where
  anchor : Option (List Char) := none
  tag : Option TagText := none

def properties (b : Builder) : Properties × Builder :=
  match b.tokens with
  | .anchor name :: .tag written :: _ =>
    ({ anchor := some name, tag := some written }, b.drop.drop)
  | .tag written :: .anchor name :: _ =>
    ({ anchor := some name, tag := some written }, b.drop.drop)
  | .anchor name :: _ => ({ anchor := some name }, b.drop)
  | .tag written :: _ => ({ tag := some written }, b.drop)
  | _ => ({}, b)

def fullTag? (b : Builder) (written : TagText) : Option Tag :=
  match written.handle with
  | none => some { bytes := written.suffix }
  | some handle => (b.handles.lookup handle).map fun start => { bytes := start ++ written.suffix }

mutual

/-- Reads one node. Block collections are read where `isBlock`, and sequences whose dashes stand at
the column of the enclosing mapping where `isIndentless`. -/
def node? (isBlock isIndentless : Bool) : Nat → Builder → Option (Node × Builder)
  | 0, _ => none
  | fuel + 1, b =>
    match b.tokens with
    | .alias name :: _ =>
      (b.names.lookup name).map fun number => (.alias number, b.drop.count 1)
    | _ => do
      let (found, b) := b.properties
      let tag ← found.tag.mapM b.fullTag?
      let start := b.started
      let b :=
        match found.anchor with
        | none => b
        | some name => b.startAnchor name
      let (node, b) ← content? isBlock isIndentless found tag fuel b
      return (node, if found.anchor.isSome then b.finishAnchor start node else b)

def content? (isBlock isIndentless : Bool) (found : Properties) (tag : Option Tag) :
    Nat → Builder → Option (Node × Builder)
  | 0, _ => none
  | fuel + 1, b =>
    match b.tokens with
    | .scalar text style :: _ =>
      some (.scalar (String.ofList text) style tag, b.drop.count 1)
    | .flowSequenceStart :: _ => do
      let (items, b) ← flowItems? true fuel (b.drop.count 2)
      return (.sequence items tag, b)
    | .flowMappingStart :: _ => do
      let (entries, b) ← flowEntries? true fuel (b.drop.count 2)
      return (.mapping entries tag, b)
    | .blockEntry :: _ =>
      if isIndentless then do
        let (items, b) ← indentlessItems? fuel (b.count 2)
        return (.sequence items tag, b)
      else empty? found tag b
    | .blockSequenceStart :: _ =>
      if isBlock then do
        let (items, b) ← blockItems? fuel (b.drop.count 2)
        return (.sequence items tag, b)
      else empty? found tag b
    | .blockMappingStart :: _ =>
      if isBlock then do
        let (entries, b) ← blockEntries? fuel (b.drop.count 2)
        return (.mapping entries tag, b)
      else empty? found tag b
    | _ => empty? found tag b

def empty? (found : Properties) (tag : Option Tag) (b : Builder) : Option (Node × Builder) :=
  if found.anchor.isSome || found.tag.isSome then
    some (.scalar "" .plain tag, b.count 1)
  else none

def blockItems? : Nat → Builder → Option (List Node × Builder)
  | 0, _ => none
  | fuel + 1, b =>
    match b.tokens with
    | .blockEntry :: rest => do
      let (item, b) ←
        match rest with
        | .blockEntry :: _ => some (Node.blank, b.drop.count 1)
        | .blockEnd :: _ => some (Node.blank, b.drop.count 1)
        | _ => node? true false fuel b.drop
      let (items, b) ← blockItems? fuel b
      return (item :: items, b)
    | .blockEnd :: _ => some ([], b.drop)
    | _ => none

/-- The items of a sequence that shares the column of its mapping; it ends where no dash follows. -/
def indentlessItems? : Nat → Builder → Option (List Node × Builder)
  | 0, _ => none
  | fuel + 1, b =>
    match b.tokens with
    | .blockEntry :: rest => do
      let (item, b) ←
        match rest with
        | .blockEntry :: _ => some (Node.blank, b.drop.count 1)
        | .key :: _ => some (Node.blank, b.drop.count 1)
        | .value :: _ => some (Node.blank, b.drop.count 1)
        | .blockEnd :: _ => some (Node.blank, b.drop.count 1)
        | _ => node? true false fuel b.drop
      let (items, b) ← indentlessItems? fuel b
      return (item :: items, b)
    | _ => some ([], b)

def blockPart? : Nat → Builder → Option (Node × Builder)
  | 0, _ => none
  | fuel + 1, b =>
    match b.tokens with
    | .key :: _ => some (Node.blank, b.count 1)
    | .value :: _ => some (Node.blank, b.count 1)
    | .blockEnd :: _ => some (Node.blank, b.count 1)
    | _ => node? true true fuel b

def blockEntries? : Nat → Builder → Option (List (Node × Node) × Builder)
  | 0, _ => none
  | fuel + 1, b =>
    match b.tokens with
    | .key :: _ => do
      let (key, b) ← blockPart? fuel b.drop
      let (value, b) ←
        match b.tokens with
        | .value :: _ => blockPart? fuel b.drop
        | _ => some (Node.blank, b.count 1)
      let (entries, b) ← blockEntries? fuel b
      return ((key, value) :: entries, b)
    | .blockEnd :: _ => some ([], b.drop)
    | _ => none

/-- The items of a sequence in brackets. An item may be a single entry of a mapping. -/
def flowItems? (isFirst : Bool) : Nat → Builder → Option (List Node × Builder)
  | 0, _ => none
  | fuel + 1, b =>
    match b.tokens with
    | .flowSequenceEnd :: _ => some ([], b.drop)
    | _ => do
      let b ←
        if isFirst then some b
        else if b.tokens.head? = some .flowEntry then some b.drop
        else none
      match b.tokens with
      | .flowSequenceEnd :: _ => some ([], b.drop)
      | .key :: _ => do
        let (entry, b) ← singleEntry? fuel (b.drop.count 2)
        let (items, b) ← flowItems? false fuel b
        return (.mapping [entry] none :: items, b)
      | _ => do
        let (item, b) ← node? false false fuel b
        let (items, b) ← flowItems? false fuel b
        return (item :: items, b)

/-- The entry of a mapping that is an item by itself. A key that is left out takes the token after
it along, so the entry is then malformed in all but a few places. -/
def singleEntry? : Nat → Builder → Option ((Node × Node) × Builder)
  | 0, _ => none
  | fuel + 1, b => do
    let (key, b) ←
      match b.tokens with
      | .value :: _ => some (Node.blank, b.drop.count 1)
      | .flowEntry :: _ => some (Node.blank, b.drop.count 1)
      | .flowSequenceEnd :: _ => some (Node.blank, b.drop.count 1)
      | _ => node? false false fuel b
    let (value, b) ←
      match b.tokens with
      | .value :: .flowEntry :: _ => some (Node.blank, b.drop.count 1)
      | .value :: .flowSequenceEnd :: _ => some (Node.blank, b.drop.count 1)
      | .value :: _ => node? false false fuel b.drop
      | _ => some (Node.blank, b.count 1)
    return ((key, value), b)

def flowEntries? (isFirst : Bool) : Nat → Builder → Option (List (Node × Node) × Builder)
  | 0, _ => none
  | fuel + 1, b =>
    match b.tokens with
    | .flowMappingEnd :: _ => some ([], b.drop)
    | _ => do
      let b ←
        if isFirst then some b
        else if b.tokens.head? = some .flowEntry then some b.drop
        else none
      match b.tokens with
      | .flowMappingEnd :: _ => some ([], b.drop)
      | .key :: rest => do
        let (key, b) ←
          match rest with
          | .value :: _ => some (Node.blank, b.drop.count 1)
          | .flowEntry :: _ => some (Node.blank, b.drop.count 1)
          | .flowMappingEnd :: _ => some (Node.blank, b.drop.count 1)
          | _ => node? false false fuel b.drop
        let (value, b) ←
          match b.tokens with
          | .value :: .flowEntry :: _ => some (Node.blank, b.drop.count 1)
          | .value :: .flowMappingEnd :: _ => some (Node.blank, b.drop.count 1)
          | .value :: _ => node? false false fuel b.drop
          | _ => some (Node.blank, b.count 1)
        let (entries, b) ← flowEntries? false fuel b
        return ((key, value) :: entries, b)
      | _ => do
        let (key, b) ← node? false false fuel b
        let (entries, b) ← flowEntries? false fuel (b.count 1)
        return ((key, Node.blank) :: entries, b)

end

def knownHandles : List (List Char × List UInt8) :=
  [(['!'], ['!'.toUInt8]), (['!', '!'], (Tag.core "").bytes)]

/-- Reads the directives before a document: at most one version, which must be 1.1 or 1.2, and each
tag handle once. -/
def directives? (hasVersion : Bool) (handles : List (List Char × List UInt8)) :
    List Token → Option (Bool × List (List Char × List UInt8) × List Token)
  | .versionDirective major minor :: rest =>
    if hasVersion || major != 1 || (minor != 1 && minor != 2) then none
    else directives? true handles rest
  | .tagDirective handle start :: rest =>
    if (handles.lookup handle).isSome then none
    else directives? hasVersion ((handle, start) :: handles) rest
  | rest => some (hasVersion || !handles.isEmpty, handles, rest)

end Builder

open Builder in
/-- The document of a token sequence, nothing if it is malformed or there is a second document. -/
def Document.ofTokens? (tokens : List Token) : Option Document := do
  let (hasDirectives, handles, rest) ← directives? false [] tokens
  let (isExplicit, rest) :=
    match rest with
    | .documentStart :: rest => (true, rest)
    | rest => (false, rest)
  if rest.isEmpty && !isExplicit && !hasDirectives then some { root := none }
  else if hasDirectives && !isExplicit then none
  else
    let b : Builder := { tokens := rest, handles := handles ++ knownHandles }
    let isEmpty :=
      isExplicit &&
        match rest with
        | [] => true
        | .versionDirective _ _ :: _ => true
        | .tagDirective _ _ :: _ => true
        | .documentStart :: _ => true
        | .documentEnd :: _ => true
        | _ => false
    let (root, b) ←
      if isEmpty then some (Node.blank, b.count 1)
      else node? true false (8 * tokens.length + 16) b
    if b.tokens.all fun token => token == .documentEnd then
      some { root := some root, targets := b.targets, size := b.size }
    else none

def Document.read? (text : String) : Option Document :=
  (tokens? text.toList).bind Document.ofTokens?

end PromptSheet.Yaml
