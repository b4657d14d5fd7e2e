import PromptSheet.FileTree

/-!
# Paths of the files below a directory

The files below a directory are listed by the names on the way to them. Put together with slashes,
behind a path to the directory, these names are a path to the file: they are no names that stay where
they are or go up, and everything on the way is a directory.
-/

namespace PromptSheet

theorem Text.splitOn_eq (sep : Char) (s : List Char) : Text.splitOn sep s = s.splitOn sep := by
  unfold List.splitOn
  induction s with
  | nil => simp [Text.splitOn]
  | cons c s ih =>
      rw [Text.splitOn, List.splitOnP_cons_eq_if_modifyHead]
      by_cases hc : c = sep
      · rw [if_pos hc, if_pos (beq_iff_eq.2 hc), ih]
      · rw [if_neg hc, if_neg (by simpa using hc), ih]
        cases h : List.splitOnP (fun d => d == sep) s with
        | nil => exact absurd h (List.splitOnP_ne_nil _ _)
        | cons piece pieces => rfl

/-- Cutting goes on anew behind a separator. -/
theorem Text.splitOn_toList_append (sep : Char) {between : String} (h : between.toList = [sep])
    (first second : String) :
    splitOn sep (first ++ between ++ second).toList =
      splitOn sep first.toList ++ splitOn sep second.toList := by
  rw [splitOn_eq, splitOn_eq, splitOn_eq, String.toList_append, String.toList_append, h,
    List.append_assoc]
  exact List.splitOnP_append_cons _ _ (beq_self_eq_true sep)

namespace FileTree

theorem components_append_slash (first second : String) :
    components (first ++ "/" ++ second) = components first ++ components second := by
  rw [components, Text.splitOn_toList_append '/' (by rfl), List.map_append]
  rfl

theorem components_intercalate {names : List String} (hne : names ≠ [])
    (hslash : ∀ name ∈ names, '/' ∉ name.toList) : components ("/".intercalate names) = names := by
  have hpieces : ∀ piece ∈ names.map String.toList, '/' ∉ piece := by
    intro piece hpiece
    obtain ⟨name, hname, rfl⟩ := List.mem_map.1 hpiece
    exact hslash name hname
  have hsplit : List.splitOn '/' (['/'].intercalate (names.map String.toList)) =
      names.map String.toList :=
    List.splitOn_intercalate '/' hpieces (by simpa using hne)
  have hslash : "/".toList = ['/'] := rfl
  rw [components, Text.splitOn_eq, String.toList_intercalate, hslash, hsplit, List.map_map]
  simp [Function.comp_def]

theorem head?_ne_slash {path : String} (h : "" ∉ components path) :
    path.toList.head? ≠ some '/' := by
  intro hhead
  obtain ⟨rest, hrest⟩ := List.head?_eq_some_iff.1 hhead
  have hpath : path = "" ++ "/" ++ String.ofList rest := by
    apply String.toList_inj.1
    simp [hrest]
  rw [hpath, components_append_slash] at h
  exact h (List.mem_append_left _ (by decide))

/-- A name that leads from a directory to something in it. -/
structure IsName (name : String) : Prop where
  nonempty : name ≠ ""
  notHere : name ≠ "."
  notUp : name ≠ ".."
  noSlash : '/' ∉ name.toList

instance (name : String) : Decidable (IsName name) :=
  decidable_of_iff (name ≠ "" ∧ name ≠ "." ∧ name ≠ ".." ∧ '/' ∉ name.toList)
    ⟨fun h => ⟨h.1, h.2.1, h.2.2.1, h.2.2.2⟩, fun h => ⟨h.nonempty, h.notHere, h.notUp, h.noSlash⟩⟩

/-- Every entry has a place of its own, and what stands below a place stands in a directory. -/
structure IsWellFormed (files : FileTree) : Prop where
  isName : ∀ entry ∈ files.entries, ∀ name ∈ entry.1, IsName name
  distinct : (files.entries.map Prod.fst).Nodup
  nothingBelow : ∀ entry ∈ files.entries, entry.2 ≠ .directory →
    ∀ other ∈ files.entries, entry.1 <+: other.1 → other.1 = entry.1
  notHome : ∀ entry ∈ files.entries, entry.2 ≠ .directory → ¬entry.1 <+: files.home

instance (files : FileTree) : Decidable files.IsWellFormed :=
  decidable_of_iff
    ((∀ entry ∈ files.entries, ∀ name ∈ entry.1, IsName name) ∧
      (files.entries.map Prod.fst).Nodup ∧
      (∀ entry ∈ files.entries, entry.2 ≠ .directory →
        ∀ other ∈ files.entries, entry.1 <+: other.1 → other.1 = entry.1) ∧
      ∀ entry ∈ files.entries, entry.2 ≠ .directory → ¬entry.1 <+: files.home)
    ⟨fun h => ⟨h.1, h.2.1, h.2.2.1, h.2.2.2⟩,
      fun h => ⟨h.isName, h.distinct, h.nothingBelow, h.notHome⟩⟩

section Places

variable {files : FileTree} {place above names : List String} {entry : Entry} {directory path : String}

theorem mem_of_lookup (h : files.entries.lookup place = some entry) :
    (place, entry) ∈ files.entries := by
  obtain ⟨before, after, hentries, _⟩ := List.lookup_eq_some_iff.1 h
  rw [hentries]
  exact List.mem_append_right _ List.mem_cons_self

theorem IsWellFormed.lookup_of_mem (h : files.IsWellFormed) (hmem : (place, entry) ∈ files.entries) :
    files.entries.lookup place = some entry := by
  obtain ⟨before, after, hentries⟩ := List.append_of_mem hmem
  refine List.lookup_eq_some_iff.2 ⟨before, after, hentries, fun other hother => ?_⟩
  have hdistinct := h.distinct
  rw [hentries, List.map_append, List.map_cons] at hdistinct
  have hne := (List.nodup_append.1 hdistinct).2.2 other.1 (List.mem_map_of_mem hother) place
    List.mem_cons_self
  simpa using hne.symm

theorem IsWellFormed.find?_of_mem (h : files.IsWellFormed) (hmem : (place, entry) ∈ files.entries)
    (hfile : entry ≠ .directory) : files.find? place = some entry := by
  have hhome : place.isPrefixOf files.home = false :=
    Bool.eq_false_iff.2 fun hp => h.notHome _ hmem hfile (List.isPrefixOf_iff_prefix.1 hp)
  simp [find?, hhome, h.lookup_of_mem hmem]

theorem IsWellFormed.isDirectoryAt_above (h : files.IsWellFormed)
    (hmem : (place, entry) ∈ files.entries) (habove : above <+: place) (hne : above ≠ place) :
    files.isDirectoryAt above = true := by
  have hany : (files.entries.any fun other => above.isPrefixOf other.1) = true :=
    List.any_eq_true.2 ⟨_, hmem, List.isPrefixOf_iff_prefix.2 habove⟩
  have hdirectory : ∀ other, files.entries.lookup above = some other → other = .directory := by
    intro other hlookup
    refine Decidable.byContradiction fun hfile => hne ?_
    exact (h.nothingBelow _ (mem_of_lookup hlookup) hfile _ hmem habove).symm
  rw [isDirectoryAt, find?, if_pos hany]
  split
  · rfl
  · cases hlookup : files.entries.lookup above with
    | none => rfl
    | some other => simp [hdirectory other hlookup]

theorem walk?_append (first second : List String) :
    files.walk? place (first ++ second) =
      (files.walk? place first).bind fun next => files.walk? next second := by
  induction first generalizing place with
  | nil => rfl
  | cons name first ih =>
      rw [List.cons_append, walk?, walk?]
      split
      · rfl
      · split
        · exact ih
        · split
          · exact ih
          · exact ih

theorem walk?_names (hnames : ∀ name ∈ names, IsName name)
    (hway : ∀ above, above <+: names → above ≠ names → files.isDirectoryAt (place ++ above) = true) :
    files.walk? place names = some (place ++ names) := by
  induction names generalizing place with
  | nil => rw [walk?, List.append_nil]
  | cons name names ih =>
      obtain ⟨hname, hnames⟩ := List.forall_mem_cons.1 hnames
      have hhere : files.isDirectoryAt place = true := by
        simpa using hway [] List.nil_prefix (by simp)
      have hlater : files.walk? (place ++ [name]) names = some (place ++ [name] ++ names) := by
        refine ih hnames fun above habove hne => ?_
        rw [List.append_assoc]
        exact hway (name :: above) (List.cons_prefix_cons.2 ⟨rfl, habove⟩) (by simpa using hne)
      rw [walk?]
      simp [hhere, hname.nonempty, hname.notHere, hname.notUp, hlater]

theorem exists_eq_append_slash (h : directory.toList.getLast? = some '/') :
    ∃ front, directory = front ++ "/" := by
  obtain ⟨front, hfront⟩ := List.getLast?_eq_some_iff.1 h
  refine ⟨String.ofList front, String.toList_inj.1 ?_⟩
  rw [hfront, String.toList_append, String.toList_ofList]
  rfl

/-- A slash at the end of the path to a directory adds nothing to it. -/
theorem exists_join_eq (hpath : path.toList.head? ≠ some '/') (hdirectory : directory ≠ "") :
    ∃ front, (directory = front ++ "/" ∨ directory = front) ∧
      join directory path = front ++ "/" ++ path := by
  have hnonempty : directory.isEmpty = false := by simpa using hdirectory
  by_cases hslash : directory.toList.getLast? = some '/'
  · obtain ⟨front, hfront⟩ := exists_eq_append_slash hslash
    refine ⟨front, .inl hfront, ?_⟩
    simp [join, hpath, hnonempty, hslash, ← hfront]
  · refine ⟨directory, .inr rfl, ?_⟩
    simp [join, hpath, hnonempty, hslash]

theorem walk?_components_join {start : List String} (hpath : path.toList.head? ≠ some '/')
    (hdirectory : directory ≠ "") (h : files.walk? start (components directory) = some place) :
    files.walk? start (components (join directory path)) = files.walk? place (components path) := by
  obtain ⟨front, hfront, hjoin⟩ := exists_join_eq hpath hdirectory
  have hstart : files.walk? start (components front) = some place := by
    rcases hfront with rfl | rfl
    · have hcomponents := components_append_slash front ""
      rw [String.append_empty] at hcomponents
      rw [hcomponents, walk?_append] at h
      obtain ⟨next, hnext, hlast : files.walk? next [""] = some place⟩ :=
        Option.bind_eq_some_iff.1 h
      rw [walk?] at hlast
      split at hlast
      · cases hlast
      · simpa [walk?, hnext] using hlast
    · exact h
  rw [hjoin, components_append_slash, walk?_append, hstart]
  rfl

theorem head?_join (hpath : path.toList.head? ≠ some '/') (hdirectory : directory ≠ "") :
    (join directory path).toList.head? = directory.toList.head? := by
  obtain ⟨front, hfront, hjoin⟩ := exists_join_eq hpath hdirectory
  have hsome : directory.toList.head?.isSome = true :=
    List.isSome_head?.2 fun h => hdirectory (String.toList_inj.1 h)
  rw [hjoin, String.toList_append]
  rcases hfront with rfl | rfl
  · rw [List.head?_append, Option.or_of_isSome hsome]
  · rw [String.toList_append, List.append_assoc, List.head?_append, Option.or_of_isSome hsome]

/-- A path in a directory goes on from where the directory is. -/
theorem place?_join (hdirectory : files.place? directory = some place)
    (hpath : path.toList.head? ≠ some '/') (hshort : (join directory path).utf8ByteSize < pathLimit) :
    files.place? (join directory path) = files.walk? place (components path) := by
  have hne : directory ≠ "" := by
    rintro rfl
    simp [place?] at hdirectory
  have hhead := head?_join hpath hne
  have hjoin : (join directory path).isEmpty = false := by
    refine Bool.eq_false_iff.2 fun h => hne ?_
    rw [String.isEmpty_iff.1 h] at hhead
    exact String.toList_inj.1 (List.head?_eq_none_iff.1 hhead.symm)
  rw [place?] at hdirectory ⊢
  split at hdirectory
  · cases hdirectory
  · rw [if_neg (by simp [hjoin, hshort]), hhead]
    exact walk?_components_join hpath hne hdirectory

/-- A listed way whose path is not too long is the whole way to a file. -/
theorem eq_of_listedWay? {rest : List String} (h : listedWay? directory entry above rest = some names)
    (hshort : (join directory ("/".intercalate names)).utf8ByteSize < pathLimit) :
    names = above ++ rest ∧ entry ≠ .directory := by
  induction rest generalizing above with
  | nil =>
      rw [listedWay?] at h
      split at h
      · cases h
      · next hfile => exact ⟨by rw [List.append_nil, Option.some.inj h], hfile⟩
  | cons name rest ih =>
      rw [listedWay?] at h
      split at h
      · next hlong =>
        rw [Option.some.inj h] at hlong
        exact absurd hshort (Nat.not_lt.2 hlong)
      · rw [List.append_cons]
        exact ih h

theorem exists_of_mem_filesBelow (h : names ∈ files.filesBelow directory)
    (hshort : (join directory ("/".intercalate names)).utf8ByteSize < pathLimit) :
    ∃ place entry, files.place? directory = some place ∧ (place ++ names, entry) ∈ files.entries ∧
      entry ≠ .directory ∧ names ≠ [] := by
  rw [filesBelow] at h
  cases hplace : files.place? directory with
  | none =>
      rw [hplace] at h
      cases h
  | some place =>
      rw [hplace] at h
      obtain ⟨⟨found, entry⟩, hmem, hfound⟩ := List.mem_filterMap.1 h
      simp only [Option.ite_none_right_eq_some, Bool.and_eq_true, decide_eq_true_eq] at hfound
      obtain ⟨⟨hbelow, hlonger⟩, hway⟩ := hfound
      obtain ⟨rest, rfl⟩ := List.isPrefixOf_iff_prefix.1 hbelow
      rw [List.drop_left] at hway
      obtain ⟨rfl, hfile⟩ := eq_of_listedWay? hway hshort
      refine ⟨place, entry, rfl, ?_, hfile, ?_⟩
      · exact (List.mem_cons.1 hmem).resolve_left fun heq => hfile (congrArg Prod.snd heq)
      · rintro rfl
        simp at hlonger

/-- **The way down to a listed file is a path to it**, unless it is too long to be one. -/
theorem IsWellFormed.isFile_join (h : files.IsWellFormed) (hmem : names ∈ files.filesBelow directory)
    (hshort : (join directory ("/".intercalate names)).utf8ByteSize < pathLimit) :
    files.isFile (join directory ("/".intercalate names)) = true := by
  obtain ⟨place, entry, hdirectory, hentry, hfile, hne⟩ := exists_of_mem_filesBelow hmem hshort
  have hnames : ∀ name ∈ names, IsName name := fun name hname =>
    h.isName _ hentry name (List.mem_append_right place hname)
  have hcomponents : components ("/".intercalate names) = names :=
    components_intercalate hne fun name hname => (hnames name hname).noSlash
  have hway : ∀ above, above <+: names → above ≠ names →
      files.isDirectoryAt (place ++ above) = true := by
    intro above habove hother
    refine h.isDirectoryAt_above hentry ((List.prefix_append_right_inj place).2 habove) ?_
    exact fun heq => hother (List.append_cancel_left heq)
  have hhead : ("/".intercalate names).toList.head? ≠ some '/' := by
    refine head?_ne_slash fun hempty => ?_
    rw [hcomponents] at hempty
    exact (hnames _ hempty).nonempty rfl
  have hget : files.get? (join directory ("/".intercalate names)) = some entry := by
    rw [get?, place?_join hdirectory hhead hshort, hcomponents, walk?_names hnames hway]
    exact h.find?_of_mem hentry hfile
  cases entry with
  | directory => exact absurd rfl hfile
  | text content => simp [isFile, hget]
  | binary => simp [isFile, hget]

end Places

end FileTree

end PromptSheet
