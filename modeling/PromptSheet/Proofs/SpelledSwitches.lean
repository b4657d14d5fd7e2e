import Mathlib.Data.List.TakeWhile
import PromptSheet.CommandLine.Command
import PromptSheet.Proofs.DictLaws

/-!
# Command lines with a switch more

A switch with an operand can be taken out of a command line together with its operand, wherever it
stands and however it is spelled: if the command line is understood, it is so without the switch, and
nothing else is understood of it.
-/

namespace PromptSheet.CommandLine

variable {switches : List Switch} {findsCommand : Bool} {switch : Switch} {places : Places}
  {given after : Given} {items : List Item} {front spelled back : List String}
  {name operand : String}

/-- Where the scan of some arguments stands: it goes on with those that follow, or they belong to the
words after `--` or to a command, or it does not matter any more what they are. -/
inductive Pause where
  | going (awaiting : Option Switch)
  | words (texts : List String)
  | command (name : String) (arguments : List String)
  | misuse

def Pause.resume (switches : List Switch) (findsCommand : Bool) : Pause → List String → List Item
  | going awaiting, rest => scan switches findsCommand awaiting rest
  | words texts, rest => [.words (texts ++ rest)]
  | command name arguments, rest => [.command name (arguments ++ rest)]
  | misuse, _ => [.misuse]

/-- Where a scan can stand: only switches that there are await an operand, and only a scan that looks
for a command finds one. -/
def Pause.IsOf (switches : List Switch) (findsCommand : Bool) : Pause → Prop
  | going awaiting => ∀ switch ∈ awaiting, switch ∈ switches
  | command _ _ => findsCommand = true
  | _ => True

/-- An item that a scan goes on behind. -/
def Item.IsOf (switches : List Switch) : Item → Prop
  | .switch switch _ _ => switch ∈ switches
  | .word _ => True
  | .misuse => True
  | _ => False

structure Argument.IsOf (argument : Argument) (switches : List Switch) : Prop where
  items : ∀ item ∈ argument.items, item.IsOf switches
  awaiting : ∀ switch ∈ argument.awaiting, switch ∈ switches

theorem isOf_readLong (switches : List Switch) (s : List Char) :
    (readLong switches s).IsOf switches := by
  rw [readLong]
  split
  · exact ⟨by simp [Item.IsOf], by simp⟩
  · next switch hfind _ =>
      have hmem := List.mem_of_find?_eq_some hfind
      split
      · exact ⟨by simp [Item.IsOf, Item.alone, hmem], by simp⟩
      · exact ⟨by simp, by simp [hmem]⟩
  · next switch _ _ hfind _ =>
      have hmem := List.mem_of_find?_eq_some hfind
      split
      · exact ⟨by simp [Item.IsOf], by simp⟩
      · exact ⟨by simp [Item.IsOf, Item.attached, hmem], by simp⟩

theorem isOf_readLetters (switches : List Switch) (s : List Char) :
    (readLetters switches s).IsOf switches := by
  induction s with
  | nil => exact ⟨by simp [readLetters], by simp [readLetters]⟩
  | cons c rest ih =>
      rw [readLetters]
      split
      · exact ⟨by simp [Item.IsOf], by simp⟩
      · next switch hfind =>
          have hmem := List.mem_of_find?_eq_some hfind
          split
          · exact ⟨List.forall_mem_cons.2 ⟨hmem, ih.items⟩, ih.awaiting⟩
          · split
            · exact ⟨by simp, by simp [hmem]⟩
            · exact ⟨by simp [Item.IsOf, Item.attached, hmem], by simp⟩
            · exact ⟨by simp [Item.IsOf, Item.attached, hmem], by simp⟩

/-- What an argument that starts with a dash comes to. -/
def readSwitches (switches : List Switch) (argument : String) : Argument :=
  match argument.toList with
  | '-' :: '-' :: name => readLong switches name
  | letters => readLetters switches letters.tail

theorem isOf_readSwitches (switches : List Switch) (argument : String) :
    (readSwitches switches argument).IsOf switches := by
  rw [readSwitches]
  split
  · exact isOf_readLong switches _
  · exact isOf_readLetters switches _

theorem scan_cons_of_isSwitch {argument : String} (hswitch : isSwitch argument = true)
    (hrest : argument ≠ "--") (rest : List String) :
    scan switches findsCommand none (argument :: rest) =
      (readSwitches switches argument).items ++
        scan switches findsCommand (readSwitches switches argument).awaiting rest := by
  rw [scan, if_neg (by simpa using hrest), if_neg (by simpa using hswitch)]
  rfl

/-- Arguments are scanned one after the other: what they come to does not depend on what follows. -/
theorem exists_pause_of_awaiting (switches : List Switch) (findsCommand : Bool)
    (front : List String) (awaiting : Option Switch) (hawaiting : ∀ switch ∈ awaiting, switch ∈ switches) :
    ∃ items pause, (∀ item ∈ items, Item.IsOf switches item) ∧
      Pause.IsOf switches findsCommand pause ∧
      ∀ rest, scan switches findsCommand awaiting (front ++ rest) =
        items ++ pause.resume switches findsCommand rest := by
  induction front generalizing awaiting with
  | nil => exact ⟨[], .going awaiting, List.forall_mem_nil _, hawaiting, fun _ => rfl⟩
  | cons argument front ih =>
      have hnone : ∀ switch ∈ (none : Option Switch), switch ∈ switches := by simp
      cases awaiting with
      | some switch =>
          have hmem : switch ∈ switches := hawaiting switch rfl
          by_cases hswitch : isSwitch argument = true
          · refine ⟨[], .misuse, List.forall_mem_nil _, trivial, fun rest => ?_⟩
            rw [List.cons_append, scan, if_pos hswitch]
            rfl
          · obtain ⟨items, pause, hitems, hpause, hscan⟩ := ih none hnone
            refine ⟨.switch switch argument true :: items, pause,
              List.forall_mem_cons.2 ⟨hmem, hitems⟩, hpause, fun rest => ?_⟩
            rw [List.cons_append, scan, if_neg hswitch, hscan]
            rfl
      | none =>
          by_cases hrest : (argument == "--") = true
          · refine ⟨[], .words front, List.forall_mem_nil _, trivial, fun rest => ?_⟩
            rw [List.cons_append, scan, if_pos hrest]
            rfl
          · by_cases hswitch : isSwitch argument = true
            · obtain ⟨items, pause, hitems, hpause, hscan⟩ :=
                ih _ (isOf_readSwitches switches argument).awaiting
              refine ⟨(readSwitches switches argument).items ++ items, pause, ?_, hpause,
                fun rest => ?_⟩
              · exact List.forall_mem_append.2 ⟨(isOf_readSwitches switches argument).items, hitems⟩
              · rw [List.cons_append, scan_cons_of_isSwitch hswitch (by simpa using hrest), hscan,
                  List.append_assoc]
            · by_cases hfinds : findsCommand = true
              · refine ⟨[], .command argument front, List.forall_mem_nil _, hfinds, fun rest => ?_⟩
                rw [List.cons_append, scan, if_neg hrest, if_pos (by simpa using hswitch),
                  if_pos hfinds]
                rfl
              · obtain ⟨items, pause, hitems, hpause, hscan⟩ := ih none hnone
                refine ⟨.word argument :: items, pause, List.forall_mem_cons.2 ⟨trivial, hitems⟩,
                  hpause, fun rest => ?_⟩
                rw [List.cons_append, scan, if_neg hrest, if_pos (by simpa using hswitch),
                  if_neg hfinds, hscan]
                rfl

theorem exists_pause (switches : List Switch) (findsCommand : Bool) (front : List String) :
    ∃ items pause, (∀ item ∈ items, Item.IsOf switches item) ∧
      Pause.IsOf switches findsCommand pause ∧
      ∀ rest, scan switches findsCommand none (front ++ rest) =
        items ++ pause.resume switches findsCommand rest :=
  exists_pause_of_awaiting switches findsCommand front none (by simp)

/-! ### Gathering

What the items are gathered into is kept sound from one item to the next. An item more in between
leaves it with one switch more, which it keeps to the end and which nothing after it depends on.
-/

/-- What a command is made of, or its name with sound switches before it. -/
def Gathered.IsSound : Gathered → Prop
  | all _ => True
  | command (some _) _ _ => True
  | _ => False

namespace Given

/-- All that was given but one switch. -/
def without (given : Given) (name : String) : Given :=
  { given with switches := given.switches.filter fun switch => switch.1 != name }

theorem operand?_without (given : Given) (name other : String) :
    (given.without name).operand? other = if other = name then none else given.operand? other :=
  Dict.lookup_filter_ne name other given.switches

theorem has_without_of_ne (given : Given) {name other : String} (hother : other ≠ name) :
    (given.without name).has other = given.has other := by
  rw [has, without, List.any_filter, has]
  congr 1
  funext switch
  by_cases hswitch : switch.1 = other
  · simp [hswitch, hother]
  · simp [hswitch]

theorem addSwitch?_eq_some (h : given.addSwitch? switch operand = some after) :
    (given.has switch.name = false ∨ switch.repeats = true) ∧
      ¬(switch.operand = .path ∧ operand.isEmpty = true) ∧
      after = { given with switches := given.switches ++ [(switch.name, operand)] } := by
  rw [addSwitch?] at h
  obtain ⟨htwice, h⟩ := Option.ite_none_left_eq_some.1 h
  obtain ⟨hempty, h⟩ := Option.ite_none_left_eq_some.1 h
  refine ⟨?_, hempty, (Option.some.inj h).symm⟩
  simpa [imp_iff_or_not, or_comm] using htwice

end Given

theorem gather_switch_of_some {added : Given} {isApart : Bool} (hhelp : switch.name ≠ "help")
    (hversion : switch.name ≠ "version") (hadd : given.addSwitch? switch operand = some added)
    (places : Places) (items : List Item) :
    gather places given (.switch switch operand isApart :: items) = gather places added items := by
  simp only [gather, beq_iff_eq, if_neg hhelp, if_neg hversion, hadd]

/-- A switch is taken in, or leaves nothing sound. -/
theorem gather_switch_cases (places : Places) (given : Given) (switch : Switch) (operand : String)
    (isApart : Bool) :
    (∃ added, switch.name ≠ "help" ∧ switch.name ≠ "version" ∧
        given.addSwitch? switch operand = some added) ∨
      ∀ items, ¬(gather places given (.switch switch operand isApart :: items)).IsSound := by
  by_cases hhelp : switch.name = "help"
  · exact .inr fun items => by simp [gather, hhelp, Gathered.IsSound]
  by_cases hversion : switch.name = "version"
  · exact .inr fun items => by simp [gather, hversion, Gathered.IsSound]
  cases hadd : given.addSwitch? switch operand with
  | some added => exact .inl ⟨added, hhelp, hversion, rfl⟩
  | none =>
      refine .inr fun items => ?_
      simp only [gather, beq_iff_eq, if_neg hhelp, if_neg hversion, hadd]
      split
      · next heq => cases heq
      · exact id
      · exact id

/-- Items are gone through one after the other. Those behind which a scan goes on are passed, or they
leave nothing sound. -/
theorem gather_append (places : Places) (given : Given)
    (hitems : ∀ item ∈ items, Item.IsOf switches item) :
    (∃ passed, ∀ rest, gather places given (items ++ rest) = gather places passed rest) ∨
      ∀ rest, ¬(gather places given (items ++ rest)).IsSound := by
  induction items generalizing given with
  | nil => exact .inl ⟨given, fun _ => rfl⟩
  | cons item items ih =>
      obtain ⟨hitem, hrest⟩ := List.forall_mem_cons.1 hitems
      cases item with
      | misuse => exact .inr fun rest => by simp [gather, Gathered.IsSound]
      | words texts => cases hitem
      | command name arguments => cases hitem
      | word text =>
          by_cases hhold : places.hold (given.addWord text).words = true
          · simp only [List.cons_append, gather, if_pos hhold]
            exact ih (given.addWord text) hrest
          · refine .inr fun rest => ?_
            simp [gather, hhold, Gathered.IsSound]
      | switch switch operand isApart =>
          obtain ⟨added, hhelp, hversion, hadd⟩ | hunsound :=
            gather_switch_cases places given switch operand isApart
          · simp only [List.cons_append, gather_switch_of_some hhelp hversion hadd]
            exact ih added hrest
          · exact .inr fun rest => hunsound (items ++ rest)

namespace Given

theorem foldl_addWord (given : Given) (texts : List String) :
    texts.foldl addWord given = { given with words := given.words ++ texts } := by
  induction texts generalizing given with
  | nil => simp
  | cons text texts ih =>
      rw [List.foldl_cons, ih, addWord, List.append_assoc]
      rfl

theorem has_without_of_not_has {other : String} (h : given.has other = false) (name : String) :
    (given.without name).has other = false := by
  rw [has, List.any_eq_false] at h ⊢
  exact fun switch hswitch => h switch (List.mem_filter.1 hswitch).1

/-- A switch that is added first is the one to take out again. -/
theorem addSwitch?_of_not_repeats (hrepeats : switch.repeats = false)
    (h : given.addSwitch? switch operand = some after) :
    after.has switch.name = true ∧ after.operand? switch.name = some operand ∧
      after.without switch.name = given := by
  obtain ⟨hfree | hrepeats', -, rfl⟩ := addSwitch?_eq_some h
  · have hother : ∀ entry ∈ given.switches, entry.1 ≠ switch.name := by
      simpa [has] using hfree
    refine ⟨?_, ?_, ?_⟩
    · simp [has]
    · have hnone : given.switches.lookup switch.name = none :=
        List.lookup_eq_none_iff.2 fun entry hentry => by simpa using (hother entry hentry).symm
      simp [operand?, List.lookup_append, hnone]
    · have hkept : given.switches.filter (fun entry => entry.1 != switch.name) = given.switches :=
        List.filter_eq_self.2 fun entry hentry => by simpa using hother entry hentry
      simp [without, hkept]
  · rw [hrepeats] at hrepeats'
    cases hrepeats'

/-- A switch that is not there twice can also be given without another one. -/
theorem addSwitch?_without (hname : given.has name = true) (hrepeats : switch.repeats = false)
    (h : given.addSwitch? switch operand = some after) :
    after.has name = true ∧
      (given.without name).addSwitch? switch operand = some (after.without name) := by
  obtain ⟨hfree | hrepeats', hempty, rfl⟩ := addSwitch?_eq_some h
  · have hne : switch.name ≠ name := by
      rintro rfl
      rw [hname] at hfree
      cases hfree
    constructor
    · rw [has, List.any_append]
      exact Bool.or_eq_true_iff.2 (.inl hname)
    · rw [addSwitch?, has_without_of_not_has hfree, if_neg (by simp), if_neg hempty]
      simp [without, hne]
  · rw [hrepeats] at hrepeats'
    cases hrepeats'

end Given

theorem gather_word_eq_all {text : String} :
    gather places given (.word text :: items) = .all after ↔
      places.hold (given.words ++ [text]) = true ∧
        gather places (given.addWord text) items = .all after := by
  rw [gather]
  by_cases hhold : places.hold (given.words ++ [text]) = true
  · exact ⟨fun h => ⟨hhold, (if_pos hhold).symm.trans h⟩, fun h => (if_pos hhold).trans h.2⟩
  · refine ⟨fun h => ?_, fun h => absurd h.1 hhold⟩
    cases (if_neg hhold).symm.trans h

theorem gather_words_eq_all {texts : List String} :
    gather places given (.words texts :: items) = .all after ↔
      places.hold (given.words ++ texts) = true ∧
        after = { given with words := given.words ++ texts } := by
  rw [gather, Given.foldl_addWord]
  by_cases hhold : places.hold (given.words ++ texts) = true
  · refine ⟨fun h => ⟨hhold, ?_⟩, fun h => (if_pos hhold).trans (congrArg _ h.2.symm)⟩
    cases (if_pos hhold).symm.trans h
    rfl
  · refine ⟨fun h => ?_, fun h => absurd h.1 hhold⟩
    cases (if_neg hhold).symm.trans h

/-- What items make of a command line they make of it without a switch, as long as none of them is
this switch. -/
theorem gather_without (hitems : ∀ switch operand isApart,
      .switch switch operand isApart ∈ items → switch.repeats = false)
    (hname : given.has name = true) (h : gather places given items = .all after) :
    gather places (given.without name) items = .all (after.without name) := by
  induction items generalizing given with
  | nil =>
      cases h
      rfl
  | cons item items ih =>
      have hrest : ∀ switch operand isApart,
          .switch switch operand isApart ∈ items → switch.repeats = false :=
        fun switch operand isApart hmem => hitems switch operand isApart (List.mem_cons_of_mem _ hmem)
      cases item with
      | misuse => cases h
      | command command arguments => cases h
      | words texts =>
          obtain ⟨hhold, rfl⟩ := gather_words_eq_all.1 h
          exact gather_words_eq_all.2 ⟨hhold, rfl⟩
      | word text =>
          obtain ⟨hhold, h⟩ := gather_word_eq_all.1 h
          have hadded : (given.addWord text).has name = true := hname
          exact gather_word_eq_all.2 ⟨hhold, ih hrest hadded h⟩
      | switch switch operand isApart =>
          have hrepeats : switch.repeats = false :=
            hitems switch operand isApart List.mem_cons_self
          obtain ⟨added, hhelp, hversion, hadd⟩ | hunsound :=
            gather_switch_cases places given switch operand isApart
          · obtain ⟨hadded, hwithout⟩ := Given.addSwitch?_without hname hrepeats hadd
            rw [gather_switch_of_some hhelp hversion hadd] at h
            rw [gather_switch_of_some hhelp hversion hwithout]
            exact ih hrest hadded h
          · exact absurd (h ▸ trivial) (hunsound items)

/-- The first operand of a switch is the one that counts, whatever comes after it. -/
theorem operand?_of_gather (hoperand : given.operand? name = some operand)
    (h : gather places given items = .all after) : after.operand? name = some operand := by
  induction items generalizing given with
  | nil =>
      cases h
      exact hoperand
  | cons item items ih =>
      cases item with
      | misuse => cases h
      | command command arguments => cases h
      | words texts =>
          obtain ⟨-, rfl⟩ := gather_words_eq_all.1 h
          exact hoperand
      | word text =>
          obtain ⟨-, h⟩ := gather_word_eq_all.1 h
          have hadded : (given.addWord text).operand? name = some operand := hoperand
          exact ih hadded h
      | switch switch other isApart =>
          obtain ⟨added, hhelp, hversion, hadd⟩ | hunsound :=
            gather_switch_cases places given switch other isApart
          · rw [gather_switch_of_some hhelp hversion hadd] at h
            obtain ⟨-, -, rfl⟩ := Given.addSwitch?_eq_some hadd
            refine ih ?_ h
            rw [Given.operand?] at hoperand ⊢
            rw [List.lookup_append, hoperand, Option.some_or]
          · exact absurd (h ▸ trivial) (hunsound items)

/-- The ways to give a switch with its operand. A short one needs no sign between the two if the
operand does not start with one. -/
inductive Spelling (switch : Switch) (operand : String) : List String → Prop where
  | long : Spelling switch operand ["--" ++ switch.name, operand]
  | longJoined : Spelling switch operand ["--" ++ switch.name ++ "=" ++ operand]
  | short {c : Char} (hletter : switch.letter = some c) :
      Spelling switch operand [String.ofList ['-', c], operand]
  | shortJoined {c : Char} (hletter : switch.letter = some c) :
      Spelling switch operand [String.ofList ('-' :: c :: '=' :: operand.toList)]
  | shortRunOn {c first : Char} {rest : List Char} (hletter : switch.letter = some c)
      (hoperand : operand.toList = first :: rest) (hfirst : first ≠ '=') :
      Spelling switch operand [String.ofList ('-' :: c :: first :: rest)]

/-- A switch with an operand that can be told by its name and its letter. -/
structure Switch.IsKnown (switch : Switch) (switches : List Switch) : Prop where
  byName : switches.find? (fun other => other.name == switch.name) = some switch
  byLetter : ∀ c, switch.letter = some c →
    switches.find? (fun other => other.letter == some c) = some switch
  operand : switch.operand ≠ .nothing

structure Switch.IsUnknown (switch : Switch) (switches : List Switch) : Prop where
  byName : switches.find? (fun other => other.name == switch.name) = none
  byLetter : ∀ c, switch.letter = some c →
    switches.find? (fun other => other.letter == some c) = none

/-- A name and a letter that can be spelled. -/
structure Switch.IsSpellable (switch : Switch) : Prop where
  name : switch.name ≠ ""
  noSign : '=' ∉ switch.name.toList
  letter : switch.letter ≠ some '-'

section Reading

variable {argument : String} {c : Char} {s : List Char}

theorem readSwitches_of_long (h : argument.toList = '-' :: '-' :: s) (switches : List Switch) :
    readSwitches switches argument = readLong switches s := by
  rw [readSwitches, h]
  rfl

theorem readSwitches_of_short (h : argument.toList = '-' :: c :: s) (hc : c ≠ '-')
    (switches : List Switch) : readSwitches switches argument = readLetters switches (c :: s) := by
  rw [readSwitches, h]
  split
  · next heq =>
      cases heq
      exact absurd rfl hc
  · rfl

theorem isSwitch_of_toList (h : argument.toList = '-' :: c :: s) : isSwitch argument = true := by
  have hne : argument ≠ "-" := by
    rintro rfl
    cases h
  rw [isSwitch, h]
  simpa using hne

theorem readLong_of_isKnown (h : switch.IsKnown switches)
    (hname : s.takeWhile (· != '=') = switch.name.toList) :
    (s.dropWhile (· != '=') = [] →
        readLong switches s = { items := [], awaiting := some switch }) ∧
      ∀ d operand, s.dropWhile (· != '=') = d :: operand →
        readLong switches s = { items := [.attached switch operand] } := by
  have hfind := h.byName
  rw [← String.ofList_toList (s := switch.name), ← hname] at hfind
  constructor
  · intro hrest
    simp only [readLong, hfind, hrest, if_neg h.operand]
  · intro d operand hrest
    simp only [readLong, hfind, hrest, if_neg h.operand]

theorem readLong_of_isUnknown (h : switch.IsUnknown switches)
    (hname : s.takeWhile (· != '=') = switch.name.toList) :
    readLong switches s = { items := [.misuse] } := by
  have hfind := h.byName
  rw [← String.ofList_toList (s := switch.name), ← hname] at hfind
  simp only [readLong, hfind]

theorem readLetters_of_isKnown (h : switch.IsKnown switches) (hletter : switch.letter = some c) :
    readLetters switches [c] = { items := [], awaiting := some switch } ∧
      readLetters switches (c :: '=' :: s) = { items := [.attached switch s] } ∧
      ∀ d, d ≠ '=' → readLetters switches (c :: d :: s) = { items := [.attached switch (d :: s)] } := by
  have hfind := h.byLetter c hletter
  refine ⟨?_, ?_, fun d hd => ?_⟩
  · simp only [readLetters, hfind, if_neg h.operand]
  · simp only [readLetters, hfind, if_neg h.operand]
  · simp only [readLetters, hfind, if_neg h.operand]
    split
    · next heq => cases heq
    · next heq =>
        cases heq
        exact absurd rfl hd
    · rfl

theorem readLetters_of_isUnknown (h : switch.IsUnknown switches)
    (hletter : switch.letter = some c) :
    readLetters switches (c :: s) = { items := [.misuse] } := by
  simp only [readLetters, h.byLetter c hletter]

end Reading

/-- What a spelling of a switch is to the scan: its first argument holds the operand, or the next
argument does, unless there is no such switch. -/
structure IsRead (switch : Switch) (operand argument : String) (tail : List String) : Prop where
  isSwitch : isSwitch argument = true
  notRest : argument ≠ "--"
  unknown : ∀ switches, switch.IsUnknown switches →
    readSwitches switches argument = { items := [.misuse] }
  known : ∀ switches, switch.IsKnown switches →
    (tail = [operand] ∧
        readSwitches switches argument = { items := [], awaiting := some switch }) ∨
      (tail = [] ∧ readSwitches switches argument = { items := [.switch switch operand false] })

theorem Switch.IsSpellable.forall_ne (h : switch.IsSpellable) :
    ∀ c ∈ switch.name.toList, (c != '=') = true := by
  intro c hc
  refine bne_iff_ne.2 ?_
  rintro rfl
  exact h.noSign hc

theorem isRead_long {argument : String} {s : List Char} {tail : List String}
    (hspell : switch.IsSpellable) (hargument : argument.toList = '-' :: '-' :: s)
    (hname : s.takeWhile (· != '=') = switch.name.toList)
    (htail : (tail = [operand] ∧ s.dropWhile (· != '=') = []) ∨
      (tail = [] ∧ s.dropWhile (· != '=') = '=' :: operand.toList)) :
    IsRead switch operand argument tail where
  isSwitch := isSwitch_of_toList hargument
  notRest := by
    rintro rfl
    obtain rfl : [] = s := by simpa using hargument
    exact hspell.name (String.toList_inj.1 hname.symm)
  unknown switches h := by
    rw [readSwitches_of_long hargument, readLong_of_isUnknown h hname]
  known switches h := by
    obtain ⟨hapart, hjoined⟩ := readLong_of_isKnown h hname
    rw [readSwitches_of_long hargument]
    rcases htail with ⟨htail, hrest⟩ | ⟨htail, hrest⟩
    · exact .inl ⟨htail, hapart hrest⟩
    · refine .inr ⟨htail, ?_⟩
      rw [hjoined _ _ hrest, Item.attached, String.ofList_toList]

theorem isRead_short {argument : String} {c : Char} {s : List Char} {tail : List String}
    (hspell : switch.IsSpellable) (hletter : switch.letter = some c)
    (hargument : argument.toList = '-' :: c :: s)
    (htail : (tail = [operand] ∧ s = []) ∨ (tail = [] ∧ s = '=' :: operand.toList) ∨
      (tail = [] ∧ s = operand.toList ∧ ∃ first rest, s = first :: rest ∧ first ≠ '=')) :
    IsRead switch operand argument tail := by
  have hc : c ≠ '-' := by
    rintro rfl
    exact hspell.letter hletter
  constructor
  · exact isSwitch_of_toList hargument
  · rintro rfl
    cases hargument
    exact hc rfl
  · intro switches h
    rw [readSwitches_of_short hargument hc, readLetters_of_isUnknown h hletter]
  · intro switches h
    rw [readSwitches_of_short hargument hc]
    rcases htail with ⟨htail, rfl⟩ | ⟨htail, rfl⟩ | ⟨htail, hs, first, rest, rfl, hfirst⟩
    · exact .inl ⟨htail, (readLetters_of_isKnown (s := []) h hletter).1⟩
    · refine .inr ⟨htail, ?_⟩
      rw [(readLetters_of_isKnown h hletter).2.1, Item.attached, String.ofList_toList]
    · refine .inr ⟨htail, ?_⟩
      rw [(readLetters_of_isKnown h hletter).2.2 first hfirst, Item.attached, hs,
        String.ofList_toList]

theorem Spelling.exists_isRead (h : Spelling switch operand spelled) (hspell : switch.IsSpellable) :
    ∃ argument tail, spelled = argument :: tail ∧ IsRead switch operand argument tail := by
  cases h with
  | long =>
      refine ⟨_, _, rfl, isRead_long (s := switch.name.toList) hspell ?_ ?_ (.inl ⟨rfl, ?_⟩)⟩
      · rw [String.toList_append]
        rfl
      · exact List.takeWhile_eq_self_iff.2 hspell.forall_ne
      · exact List.dropWhile_eq_nil_iff.2 hspell.forall_ne
  | longJoined =>
      refine ⟨_, _, rfl, isRead_long (s := switch.name.toList ++ '=' :: operand.toList) hspell ?_ ?_
        (.inr ⟨rfl, ?_⟩)⟩
      · rw [String.toList_append, String.toList_append, String.toList_append, List.append_assoc]
        rfl
      · exact (List.takeWhile_append_of_pos hspell.forall_ne).trans (List.append_nil _)
      · exact List.dropWhile_append_of_pos hspell.forall_ne
  | short hletter =>
      refine ⟨_, _, rfl, isRead_short hspell hletter ?_ (.inl ⟨rfl, rfl⟩)⟩
      exact String.toList_ofList
  | shortJoined hletter =>
      refine ⟨_, _, rfl, isRead_short hspell hletter ?_ (.inr (.inl ⟨rfl, rfl⟩))⟩
      exact String.toList_ofList
  | shortRunOn hletter hoperand hfirst =>
      refine ⟨_, _, rfl, isRead_short hspell hletter ?_
        (.inr (.inr ⟨rfl, hoperand.symm, _, _, rfl, hfirst⟩))⟩
      exact String.toList_ofList

/-! ### Taking a switch out

The arguments in front of a switch are scanned alike with it and without it. What the scanner waits
for there decides how the switch is read: if another one waits for its operand, or if the command
does not know it, the command line is misused.
-/

section Remove

variable {argument : String} {tail : List String}

/-- A spelling is not taken for the operand of a switch before it. -/
theorem resume_spelled_of_isUnknown (h : IsRead switch operand argument tail)
    (hunknown : switch.IsUnknown switches) (findsCommand : Bool) (awaiting : Option Switch)
    (back : List String) :
    ∃ rest, (Pause.going awaiting).resume switches findsCommand (argument :: tail ++ back) =
      .misuse :: rest := by
  rw [Pause.resume, List.cons_append]
  cases awaiting with
  | some other => exact ⟨[], by rw [scan, if_pos h.isSwitch]⟩
  | none =>
      rw [scan_cons_of_isSwitch h.isSwitch h.notRest, h.unknown switches hunknown]
      exact ⟨_, rfl⟩

theorem resume_spelled_of_isKnown (h : IsRead switch operand argument tail)
    (hknown : switch.IsKnown switches) (findsCommand : Bool) (awaiting : Option Switch)
    (back : List String) :
    (Pause.going awaiting).resume switches findsCommand (argument :: tail ++ back) = [.misuse] ∨
      awaiting = none ∧ ∃ isApart,
        (Pause.going awaiting).resume switches findsCommand (argument :: tail ++ back) =
          .switch switch operand isApart :: scan switches findsCommand none back := by
  rw [Pause.resume, List.cons_append]
  cases awaiting with
  | some other => exact .inl (by rw [scan, if_pos h.isSwitch])
  | none =>
      rw [scan_cons_of_isSwitch h.isSwitch h.notRest]
      rcases h.known switches hknown with ⟨rfl, hread⟩ | ⟨rfl, hread⟩
      · rw [hread]
        by_cases hoperand : isSwitch operand = true
        · refine .inl ?_
          simp only [List.nil_append, List.cons_append, scan, if_pos hoperand]
        · refine .inr ⟨rfl, true, ?_⟩
          simp only [List.nil_append, List.cons_append, scan, if_neg hoperand]
      · rw [hread]
        exact .inr ⟨rfl, false, rfl⟩

/-- A switch that there is not before the name of a command stands in no sound command line, so it is
among the arguments of the command. -/
theorem gather_command_remove {before : Given} {rest : List String}
    (h : IsRead switch operand argument tail) (hunknown : switch.IsUnknown switches)
    (hcommand : gather places {} (CommandLine.items switches true (front ++ argument :: tail ++ back)) =
      .command (some before) name rest) :
    ∃ between, rest = between ++ argument :: tail ++ back ∧
      gather places {} (CommandLine.items switches true (front ++ back)) =
        .command (some before) name (between ++ back) := by
  obtain ⟨items, pause, hitems, hpause, hscan⟩ := exists_pause switches true front
  rw [CommandLine.items, List.append_assoc, hscan] at hcommand
  rw [CommandLine.items, hscan]
  obtain ⟨passed, hpassed⟩ | hunsound := gather_append places {} hitems
  · rw [hpassed] at hcommand ⊢
    cases pause with
    | going awaiting =>
        obtain ⟨others, hmisuse⟩ := resume_spelled_of_isUnknown h hunknown true awaiting back
        rw [hmisuse] at hcommand
        cases hcommand
    | words texts =>
        rw [Pause.resume, gather] at hcommand
        split at hcommand <;> cases hcommand
    | command found arguments =>
        rw [Pause.resume, gather] at hcommand ⊢
        cases hcommand
        exact ⟨arguments, (List.append_assoc ..).symm, rfl⟩
    | misuse => cases hcommand
  · exact absurd (by rw [hcommand]; trivial) (hunsound _)

theorem mem_of_switch_mem_scan {isApart : Bool} {arguments : List String}
    (h : .switch switch operand isApart ∈ scan switches findsCommand none arguments) :
    switch ∈ switches := by
  obtain ⟨items, pause, hitems, -, hscan⟩ := exists_pause switches findsCommand arguments
  have hend := hscan []
  rw [List.append_nil] at hend
  rw [hend] at h
  rcases List.mem_append.1 h with h | h
  · exact hitems _ h
  · -- At the end of the arguments no switch is left to read.
    cases pause with
    | going awaiting => cases awaiting <;> simp [Pause.resume, scan] at h
    | words texts => simp [Pause.resume] at h
    | command name arguments => simp [Pause.resume] at h
    | misuse => simp [Pause.resume] at h

/-- Taken out of the arguments of a command, a switch is the only one that goes. -/
theorem gather_all_remove (h : IsRead switch operand argument tail)
    (hknown : switch.IsKnown switches) (hrepeats : ∀ other ∈ switches, other.repeats = false)
    (hword : places.accepts argument = false)
    (hall : gather places {} (CommandLine.items switches false
      (front ++ argument :: tail ++ back)) = .all after) :
    after.operand? switch.name = some operand ∧
      gather places {} (CommandLine.items switches false (front ++ back)) =
        .all (after.without switch.name) := by
  obtain ⟨items, pause, hitems, hpause, hscan⟩ := exists_pause switches false front
  rw [CommandLine.items, List.append_assoc, hscan] at hall
  rw [CommandLine.items, hscan]
  obtain ⟨passed, hpassed⟩ | hunsound := gather_append places {} hitems
  · rw [hpassed] at hall ⊢
    cases pause with
    | going awaiting =>
        obtain hmisuse | ⟨rfl, isApart, hread⟩ :=
          resume_spelled_of_isKnown h hknown false awaiting back
        · rw [hmisuse] at hall
          cases hall
        · rw [hread] at hall
          have hown : switch.repeats = false :=
            hrepeats switch (List.mem_of_find?_eq_some hknown.byName)
          obtain ⟨added, hhelp, hversion, hadd⟩ | hunsound :=
            gather_switch_cases places passed switch operand isApart
          · rw [gather_switch_of_some hhelp hversion hadd] at hall
            obtain ⟨hhas, hoperand, hwithout⟩ := Given.addSwitch?_of_not_repeats hown hadd
            refine ⟨operand?_of_gather hoperand hall, ?_⟩
            rw [← hwithout]
            refine gather_without (fun other otherOperand otherApart hmem => ?_) hhas hall
            exact hrepeats other (mem_of_switch_mem_scan hmem)
          · exact absurd (by rw [hall]; trivial) (hunsound _)
    | words texts =>
        -- Behind `--` the spelling would be a word.
        rw [Pause.resume] at hall
        obtain ⟨hhold, -⟩ := gather_words_eq_all.1 hall
        rw [Places.hold, Bool.and_eq_true, List.all_eq_true] at hhold
        have haccepted : places.accepts argument = true := hhold.2 argument (by simp)
        rw [hword] at haccepted
        cases haccepted
    | command found arguments => cases hpause
    | misuse => cases hall
  · exact absurd (by rw [hall]; trivial) (hunsound _)

end Remove

end PromptSheet.CommandLine
