import MediaSweep.Proofs.Storage.Laws
import MediaSweep.Proofs.Storage.PathOrder
import MediaSweep.Proofs.Storage.Snapshot

/-!
# Exactly the stylesheets are found

A selection finds the files that lie directly in the root or in one of its subdirectories and have
the extension: all of them and nothing else, each path once and in the order of paths
(`Selection.find_exact`).  The directories may come in any order and lead to each other, and the
entries of a directory may be listed in any order, in another one each time (`Tells`).  None of that
can be seen in what is found, except that of two paths that say the same either may be given.

A file is asked for by the path of its directory with its name joined to it.  That path can be too
long even where the one of the directory is not, and then nothing is found at it.  Such a file is
passed over like anything else that is no file (`Selection.find_passes_over`).
-/

namespace MediaSweep

set_option autoImplicit false

/-! ## Entries of directories -/

namespace Disk

variable {d : Disk} {directory path : Path} {name : String} {rights : Rights}

/-- **A name is found in a directory** that can be searched if something stands there, and if the
path and the name are not too long. -/
theorem find_join_name_iff (enters : d.Enters directory)
    (there : d.item? (d.locate directory) = some (.directory rights))
    (searchable : rights.search = true) (isName : IsName name) :
    d.find (directory.join name) = .ok (d.locate directory ++ [name]) ↔
      (directory.join name).IsUsable ∧ name.utf8ByteSize ≤ nameLimit ∧
        (d.item? (d.locate directory ++ [name])).isSome := by
  have relative := Path.isAbsolute_name isName
  obtain ⟨front, joined, stem⟩ := Path.pieces_join relative directory
  rw [Path.pieces_eq_singleton isName.unbroken] at joined
  have same : d.startOf (directory.join name) = d.startOf directory := by
    rw [startOf, startOf, Path.isAbsolute_join relative]
  have last : d.reach (d.startOf directory) (front ++ [name]) =
      d.reachStep (d.locate directory) name := by
    rw [reach_append, enters.stem stem]
    show d.reach (d.locate directory) [name] = _
    rw [reach, there]
    simp only [if_neg isName.nonempty, if_pos searchable]
    cases d.reachStep (d.locate directory) name <;> rfl
  rw [find_eq_ok_iff, same, joined, last, reachStep, if_neg isName.not_here, if_neg isName.not_up]
  have start := enters.start
  constructor
  · rintro ⟨usable, _, stepped⟩
    split at stepped
    · cases stepped
    rename_i short
    split at stepped
    · exact ⟨usable, Nat.le_of_not_lt short, ‹_›⟩
    · cases stepped
  · rintro ⟨usable, short, present⟩
    exact ⟨usable, start, by rw [if_neg (Nat.not_lt_of_le short), if_pos present]⟩

/-- A directory that can be listed and searched. -/
def Opens (d : Disk) (directory : Path) : Prop :=
  ∃ rights, d.item? (d.locate directory) = some (.directory rights) ∧
    rights.read = true ∧ rights.search = true

/-- A file that lies directly in a directory and can be asked for by its path. -/
structure HasFile (d : Disk) (directory : Path) (name : String) : Prop where
  isName : IsName name
  stands : ∃ rights content,
    d.item? (d.locate directory ++ [name]) = some (.file rights content)
  usable : (directory.join name).IsUsable
  short : name.utf8ByteSize ≤ nameLimit

theorem find_of_kind? {kind : FileKind} (isKind : d.kind? path = some kind) :
    d.find path = .ok (d.locate path) := by
  rw [kind?] at isKind
  cases resolved : d.resolve path with
  | error fault =>
    rw [resolved] at isKind
    cases isKind
  | ok node =>
    obtain ⟨location, found, _⟩ := resolve_eq_ok_iff.1 resolved
    rw [found, locate_of_find found]

/-- An open directory can be listed. -/
theorem Opens.exists_list (opens : d.Opens directory)
    (isDirectory : d.kind? directory = some .directory) :
    ∃ entries, d.list directory = .ok entries := by
  obtain ⟨rights, there, readable, _⟩ := opens
  obtain ⟨entries, isNode⟩ := exists_entries_of_item? there
  exact ⟨_, list_of_find (find_of_kind? isDirectory) isNode readable⟩

/-- What is found at a name in an open directory is a file exactly when one lies there. -/
theorem kind?_join_name_iff (isDirectory : d.kind? directory = some .directory)
    (opens : d.Opens directory) (isName : IsName name) :
    d.kind? (directory.join name) = some .file ↔ d.HasFile directory name := by
  obtain ⟨rights, there, _, searchable⟩ := opens
  have foundIff := find_join_name_iff (enters_of_kind? isDirectory) there searchable isName
  constructor
  · intro isFile
    obtain ⟨item, stands, isKind⟩ := of_kind? isFile
    rw [locate_join_name isName] at stands
    obtain ⟨usable, short, _⟩ := foundIff.1 (by
      rw [← locate_join_name isName]
      exact find_of_kind? isFile)
    refine ⟨isName, ?_, usable, short⟩
    cases item with
    | file held content => exact ⟨held, content, stands⟩
    | directory held => cases isKind
  · rintro ⟨_, ⟨held, content, stands⟩, usable, short⟩
    have found := foundIff.2 ⟨usable, short, by rw [stands]; rfl⟩
    obtain ⟨node, isNode, seen⟩ := exists_node_of_item? stands
    rw [kind?_of_find found isNode, ← Item.kind_item, seen]
    rfl

/-- What lies directly in some directories: the files with an extension, by their paths. -/
def Shows (d : Disk) (directories : List Path) (extension : String) (path : Path) : Prop :=
  path.extension? = some extension ∧ ∃ directory ∈ directories,
    d.kind? directory = some .directory ∧ ∃ name, path = directory.join name ∧
      d.HasFile directory name

/-- Exactly the files with an extension that lie directly in some directories, each path once and in
the order of paths. -/
structure ShowsExactly (d : Disk) (directories : List Path) (extension : String)
    (files : List Path) : Prop where
  increasing : files.Pairwise fun p q => p.before q = true
  sound : ∀ path ∈ files, d.Shows directories extension path
  complete : ∀ path, d.Shows directories extension path → ∃ found ∈ files, found.same path = true

theorem shows_cons {directories : List Path} {extension : String} :
    d.Shows (directory :: directories) extension path ↔
      d.Shows [directory] extension path ∨ d.Shows directories extension path := by
  simp only [Shows, List.mem_cons, List.not_mem_nil, or_false, exists_eq_or_imp, exists_eq_left,
    and_or_left]

/-- Ordered, what some directories show is shown exactly. -/
theorem showsExactly_orderPaths {directories files : List Path} {extension : String}
    (shown : ∀ path, path ∈ files ↔ d.Shows directories extension path) :
    d.ShowsExactly directories extension (orderPaths files) where
  increasing := pairwise_orderPaths files
  sound := by
    intro path mem
    exact (shown path).1 (mem_of_mem_orderPaths mem)
  complete := by
    intro path isShown
    exact exists_same_of_mem ((shown path).2 isShown)

/-- What is shown by directories is shown by the same ones in any order. -/
theorem ShowsExactly.map_parts_eq {directories others : List Path} {extension : String}
    {files files' : List Path} (exact : d.ShowsExactly directories extension files)
    (exact' : d.ShowsExactly others extension files')
    (same : ∀ directory, directory ∈ others ↔ directory ∈ directories) :
    files'.map Path.parts = files.map Path.parts := by
  refine MediaSweep.map_parts_eq exact'.increasing exact.increasing ?_ ?_
  · intro path mem
    obtain ⟨extension_eq, directory, isOther, shown⟩ := exact'.sound path mem
    exact exact.complete path ⟨extension_eq, directory, (same directory).1 isOther, shown⟩
  · intro path mem
    obtain ⟨extension_eq, directory, isOne, shown⟩ := exact.sound path mem
    exact exact'.complete path ⟨extension_eq, directory, (same directory).2 isOne, shown⟩

end Disk

/-! ## Looking for files -/

namespace Selection

variable {σ : Type} [FileSystem (StateM σ)] {disk : σ → Disk} {s : Selection} {t : σ}
  {root directory path : Path} {directories : List Path}

theorem exists_keepFiles (tells : Tells disk) (paths : List Path) (t : σ) :
    ∃ t', (keepFiles paths : StateM σ (List Path)) t =
      (paths.filter fun path => (disk t).kind? path = some .file, t') ∧ disk t' = disk t := by
  induction paths generalizing t with
  | nil => exact ⟨t, rfl, rfl⟩
  | cons path rest ih =>
    obtain ⟨t₁, asked, kept⟩ := tells.kind? path t
    obtain ⟨t₂, others, kept'⟩ := ih t₁
    have looked : (FileSystem.isFile path : StateM σ Bool) t =
        (decide ((disk t).kind? path = some .file), t₁) := run_bind asked _
    refine ⟨t₂, ?_, kept'.trans kept⟩
    rw [keepFiles, run_bind looked, run_bind others, List.filter_cons, kept]
    rfl

/-- In an open directory exactly its files with the extension are found. -/
theorem exists_inDirectory (tells : Tells disk) (proper : (disk t).Proper)
    (isDirectory : (disk t).kind? directory = some .directory)
    (opens : (disk t).Opens directory) :
    ∃ files t', (s.inDirectory directory : StateM σ (Except Failure (List Path))) t =
        (.ok files, t') ∧ disk t' = disk t ∧
      ∀ path, path ∈ files ↔ (disk t).Shows [directory] s.extension path := by
  obtain ⟨entries, lists⟩ := opens.exists_list isDirectory
  obtain ⟨shuffled, t₁, perm, listed, kept⟩ := tells.list directory t entries lists
  obtain ⟨t₂, looked, kept'⟩ := exists_keepFiles tells
    ((shuffled.map fun e => directory.join e.1).filter s.admits) t₁
  have found : (s.inDirectory directory : StateM σ (Except Failure (List Path))) t =
      (.ok (((shuffled.map fun e => directory.join e.1).filter s.admits).filter
        fun path => (disk t₁).kind? path = some .file), t₂) := by
    rw [inDirectory, run_bind listed]
    exact run_bind looked _
  refine ⟨_, t₂, found, kept'.trans kept, ?_⟩
  intro path
  rw [List.mem_filter, List.mem_filter, List.mem_map, kept, decide_eq_true_iff, admits,
    decide_eq_true_iff]
  constructor
  · rintro ⟨⟨⟨entry, isEntry, rfl⟩, extension_eq⟩, isFile⟩
    have isName := ((Disk.of_list proper lists).2 entry (perm.mem_iff.1 isEntry)).1
    exact ⟨extension_eq, directory, List.mem_singleton_self directory, isDirectory, entry.1, rfl,
      (Disk.kind?_join_name_iff isDirectory opens isName).1 isFile⟩
  · rintro ⟨extension_eq, other, isHere, _, name, rfl, hasFile⟩
    obtain rfl := List.mem_singleton.1 isHere
    obtain ⟨rights, content, stands⟩ := hasFile.stands
    refine ⟨⟨⟨(name, .file), ?_, rfl⟩, extension_eq⟩,
      (Disk.kind?_join_name_iff isDirectory opens hasFile.isName).2 hasFile⟩
    exact perm.mem_iff.2 (Disk.mem_of_list lists stands)

/-- In some directories, of which those that are there are open, exactly what they show is found. -/
theorem exists_inDirectories (tells : Tells disk) (proper : (disk t).Proper)
    (opens : ∀ directory ∈ directories, (disk t).kind? directory = some .directory →
      (disk t).Opens directory) :
    ∃ files t', (s.inDirectories directories : StateM σ (Except Failure (List Path))) t =
        (.ok files, t') ∧ disk t' = disk t ∧
      ∀ path, path ∈ files ↔ (disk t).Shows directories s.extension path := by
  induction directories generalizing t with
  | nil =>
    refine ⟨[], t, rfl, rfl, ?_⟩
    intro path
    simp [Disk.Shows]
  | cons directory others ih =>
    obtain ⟨opensHere, opensOthers⟩ := List.forall_mem_cons.1 opens
    obtain ⟨t₁, asked, kept⟩ := tells.exists_isDirectory directory t
    rw [← kept] at proper opensHere opensOthers ⊢
    rw [inDirectories, run_bind asked, ← kept]
    by_cases isDirectory : (disk t₁).kind? directory = some .directory
    · obtain ⟨files, t₂, here, kept', shown⟩ :=
        exists_inDirectory (s := s) tells proper isDirectory (opensHere isDirectory)
      rw [← kept'] at proper opensOthers
      obtain ⟨behind, t₃, elsewhere, kept'', shownBehind⟩ := ih proper opensOthers
      rw [kept'] at shownBehind
      refine ⟨files ++ behind, t₃, ?_, kept''.trans kept', ?_⟩
      · rw [if_pos (decide_eq_true isDirectory), run_bind here]
        exact run_bind elsewhere _
      · intro path
        rw [List.mem_append]
        exact (or_congr (shown path) (shownBehind path)).trans Disk.shows_cons.symm
    · obtain ⟨behind, t₂, elsewhere, kept', shownBehind⟩ := ih proper opensOthers
      refine ⟨behind, t₂, ?_, kept', ?_⟩
      · rw [if_neg (by simpa using isDirectory), elsewhere]
      · intro path
        rw [shownBehind, Disk.shows_cons, or_iff_right]
        rintro ⟨_, other, isHere, isThere, _⟩
        obtain rfl := List.mem_singleton.1 isHere
        exact isDirectory isThere

/-- Under a root exactly what it and the subdirectories show is found. -/
theorem exists_find (tells : Tells disk) (proper : (disk t).Proper)
    (isRoot : (disk t).kind? root = some .directory)
    (opens : ∀ directory ∈ root :: s.subdirectories.map root.join,
      (disk t).kind? directory = some .directory → (disk t).Opens directory) :
    ∃ files t', (s.find root : StateM σ (Except Failure (List Path))) t = (.ok files, t') ∧
      disk t' = disk t ∧
      (disk t).ShowsExactly (root :: s.subdirectories.map root.join) s.extension files := by
  obtain ⟨t₁, asked, kept⟩ := tells.exists_isDirectory root t
  rw [← kept] at proper opens
  obtain ⟨files, t₂, found, kept', shown⟩ := exists_inDirectories (s := s) tells proper opens
  rw [kept] at shown
  refine ⟨orderPaths files, t₂, ?_, kept'.trans kept, Disk.showsExactly_orderPaths shown⟩
  rw [find, run_bind asked, if_pos (decide_eq_true isRoot)]
  exact run_bind found _

/-- An extension as it was given, without the points before it. -/
structure IsBare (given bare : String) : Prop where
  points : ∃ n, given.toList = List.replicate n '.' ++ bare.toList
  first : bare.toList.head? ≠ some '.'

/-- The extension of a selection is the given one without the points before it. -/
theorem isBare_of (subdirectories : List String) (given : String) :
    IsBare given (of subdirectories given).extension where
  points := by
    refine ⟨(given.toList.takeWhile (· = '.')).length, ?_⟩
    have points : given.toList.takeWhile (· = '.') =
        List.replicate (given.toList.takeWhile (· = '.')).length '.' := by
      rw [List.eq_replicate_iff]
      refine ⟨rfl, ?_⟩
      intro c mem
      simpa using List.mem_takeWhile_imp mem
    rw [← points, of, String.toList_ofList, List.takeWhile_append_dropWhile]
  first := by
    intro point
    rw [of, String.toList_ofList] at point
    have := List.head?_dropWhile_not (· = '.') given.toList
    rw [point] at this
    simp at this

/-- There is one extension without the points before it. -/
theorem IsBare.eq {given bare other : String} (isBare : IsBare given bare)
    (isOther : IsBare given other) : bare = other := by
  have drop : ∀ {text : String}, IsBare given text →
      given.toList.dropWhile (· = '.') = text.toList := by
    intro text isText
    obtain ⟨n, whole⟩ := isText.points
    rw [whole, List.dropWhile_append_of_pos (by simp)]
    cases chars : text.toList with
    | nil => rfl
    | cons first rest =>
      have head := isText.first
      rw [chars, List.head?_cons] at head
      exact List.dropWhile_cons_of_neg (by simpa using head)
  exact String.toList_injective ((drop isBare).symm.trans (drop isOther))

/-- **Exactly the stylesheets are found.**  Under a root that is a directory, where it and the
subdirectories that are there can be listed and searched, what is found are the files with the
extension that lie directly in one of these directories, each path once and in the order of paths.
The order and repetition of the subdirectories make no difference to the parts of what is found, and
neither does the order in which directories are listed. -/
theorem find_exact (tells : Tells disk) (proper : (disk t).Proper)
    (isRoot : (disk t).kind? root = some .directory) (subdirectories : List String)
    (opens : ∀ directory ∈ root :: subdirectories.map root.join,
      (disk t).kind? directory = some .directory → (disk t).Opens directory) (given : String) :
    ∃ files t', ((of subdirectories given).find root : StateM σ (Except Failure (List Path))) t =
        (.ok files, t') ∧ disk t' = disk t ∧
      (∃ bare, IsBare given bare ∧
        (disk t).ShowsExactly (root :: subdirectories.map root.join) bare files) ∧
      ∀ {τ : Type} [FileSystem (StateM τ)] {view : τ → Disk} (u : τ) (others : List String),
        Tells view → view u = disk t → (∀ inner, inner ∈ others ↔ inner ∈ subdirectories) →
          ∃ files' u', ((of others given).find root : StateM τ (Except Failure (List Path))) u =
              (.ok files', u') ∧ files'.map Path.parts = files.map Path.parts := by
  obtain ⟨files, t', found, kept, exact⟩ :=
    exists_find (s := of subdirectories given) tells proper isRoot opens
  refine ⟨files, t', found, kept, ⟨_, isBare_of subdirectories given, exact⟩, ?_⟩
  intro τ _ view u others tells' seen sameNames
  have sameDirectories : ∀ directory, directory ∈ root :: others.map root.join ↔
      directory ∈ root :: subdirectories.map root.join := by
    intro directory
    simp only [List.mem_cons, List.mem_map, sameNames]
  rw [← seen] at proper isRoot exact
  obtain ⟨files', u', found', _, exact'⟩ :=
    exists_find (s := of others given) tells' proper isRoot (by
      intro directory mem
      rw [seen]
      exact opens directory ((sameDirectories directory).1 mem))
  exact ⟨files', u', found', exact.map_parts_eq exact' sameDirectories⟩

/-- The stylesheet of the disk with one stylesheet is found, where a subdirectory is the root
again. -/
theorem find_exact_leafDisk :
    Disk.leafDisk.Proper ∧ Disk.leafDisk.kind? ⟨"css"⟩ = some .directory ∧
      ∃ files d', ((of ["."] ".css").find ⟨"css"⟩ : Disk.Run (Except Failure (List Path)))
          Disk.leafDisk = (.ok files, d') ∧
        Disk.leafDisk.ShowsExactly [⟨"css"⟩, ⟨"css/."⟩] "css" files ∧
        ∃ found ∈ files, found.same ⟨"css/a.css"⟩ = true := by
  have found : Disk.leafDisk.find ⟨"css"⟩ = .ok ["css"] :=
    Disk.find_eq_ok_iff.2 ⟨⟨by simp, by decide, by decide⟩, rfl, rfl⟩
  have isRoot : Disk.leafDisk.kind? ⟨"css"⟩ = some .directory := Disk.kind?_of_find found rfl
  obtain ⟨files, d', ran, _, ⟨bare, isBare, exact⟩, _⟩ :=
    find_exact Disk.tells Disk.proper_leafDisk isRoot ["."] (by
      intro directory mem _
      simp only [List.map_cons, List.map_nil, List.mem_cons, List.not_mem_nil, or_false] at mem
      rcases mem with rfl | rfl <;> exact ⟨{}, rfl, rfl, rfl⟩) ".css"
  obtain rfl : bare = "css" := isBare.eq ⟨⟨1, by decide⟩, by decide⟩
  have joined : (Path.mk "css").join "a.css" = ⟨"css/a.css"⟩ := by decide +kernel
  have hasFile : Disk.leafDisk.HasFile ⟨"css"⟩ "a.css" := by
    refine ⟨⟨by decide, by decide, by decide, by decide⟩, ⟨_, _, rfl⟩, ?_, by decide⟩
    rw [joined]
    exact ⟨by simp, by decide, by decide⟩
  have shown : Disk.leafDisk.Shows [⟨"css"⟩, ⟨"css/."⟩] "css" ⟨"css/a.css"⟩ :=
    ⟨by decide +kernel, ⟨"css"⟩, List.mem_cons_self, isRoot, "a.css", joined.symm, hasFile⟩
  have exact : Disk.leafDisk.ShowsExactly [⟨"css"⟩, ⟨"css/."⟩] "css" files := exact
  exact ⟨Disk.proper_leafDisk, isRoot, files, d', ran, exact, exact.complete _ shown⟩

end Selection

/-! ## A file whose path is too long -/

/-- A text with points before it that say nothing. -/
def roundabout : Nat → String → String
  | 0, text => text
  | n + 1, text => "." ++ "/" ++ roundabout n text

theorem pieces_roundabout (n : Nat) (text : String) :
    Path.pieces (roundabout n text) = List.replicate n "." ++ Path.pieces text := by
  induction n with
  | zero => rfl
  | succ n ih =>
    rw [roundabout, Path.pieces_append, ih, Path.pieces_eq_singleton (by decide)]
    rfl

theorem utf8ByteSize_roundabout (n : Nat) (text : String) :
    (roundabout n text).utf8ByteSize = 2 * n + text.utf8ByteSize := by
  induction n with
  | zero => simp [roundabout]
  | succ n ih =>
    rw [roundabout, String.utf8ByteSize_append, ih]
    show 2 + _ = _
    omega

theorem mem_roundabout (n : Nat) (text : String) :
    '\x00' ∈ (roundabout n text).toList ↔ '\x00' ∈ text.toList := by
  induction n with
  | zero => rfl
  | succ n ih => simp [roundabout, ih]

namespace Disk

/-- The directory of the stylesheet, by a path with points before it. -/
def distantRoot (n : Nat) : Path :=
  ⟨roundabout n "css"⟩

theorem find_distantRoot {n : Nat} (short : 2 * n + 3 < pathLimit) :
    leafDisk.find (distantRoot n) = .ok ["css"] := by
  have usable : (distantRoot n).IsUsable := by
    refine ⟨?_, ?_, ?_⟩
    · simp [distantRoot, mem_roundabout]
    · intro blank
      have size := utf8ByteSize_roundabout n "css"
      rw [show roundabout n "css" = "" from blank] at size
      exact absurd size (Nat.ne_of_lt (Nat.lt_of_lt_of_le (by decide) (Nat.le_add_left _ _)))
    · rw [distantRoot, utf8ByteSize_roundabout]
      exact short
  have start : leafDisk.startOf (distantRoot n) = [] := by
    rw [startOf]
    split <;> rfl
  have still : ∀ k, leafDisk.reach [] (List.replicate k ".") = .ok [] := by
    intro k
    induction k with
    | zero => rfl
    | succ k ih => exact ih
  rw [find_eq_ok_iff, start, distantRoot, pieces_roundabout, reach_append, still]
  exact ⟨usable, rfl, rfl⟩

/-- A path that is usable leaves room for the points before it. -/
theorem short_of_usable {n : Nat} {name : String} (isName : IsName name)
    (usable : ((distantRoot n).join name).IsUsable) :
    2 * n + 3 + name.utf8ByteSize < pathLimit := by
  have size : (distantRoot n).text.utf8ByteSize = 2 * n + 3 := utf8ByteSize_roundabout n "css"
  rw [← size]
  exact Nat.lt_of_le_of_lt (Path.le_utf8ByteSize_join isName _) usable.short

/-- What lies in the directory of the stylesheet is the stylesheet. -/
theorem eq_of_stands_leafDisk {name : String} {item : Item}
    (stands : leafDisk.item? (["css"] ++ [name]) = some item) : name = "a.css" := by
  obtain ⟨node, found, _⟩ := exists_node_of_item? stands
  rw [node?_concat (show leafDisk.node? ["css"] = some (.directory {} _) from rfl)] at found
  obtain ⟨before, behind, whole, _⟩ := List.lookup_eq_some_iff.1 found
  have mem : (name, node) ∈ before ++ (name, node) :: behind := by simp
  rw [← whole] at mem
  exact congrArg Prod.fst (List.mem_singleton.1 mem)

end Disk

open Disk in
/-- **A file is passed over when its path is too long**, though it lies in the root, has the
extension, and the path of the root is not. -/
theorem Selection.find_passes_over :
    leafDisk.Proper ∧ leafDisk.kind? (distantRoot 2044) = some .directory ∧
      leafDisk.Opens (distantRoot 2044) ∧
      (∃ rights content, leafDisk.item? (leafDisk.locate (distantRoot 2044) ++ ["a.css"]) =
        some (.file rights content)) ∧
      ((distantRoot 2044).join "a.css").extension? = some "css" ∧
      ∃ d', ((of [] "css").find (distantRoot 2044) : Run (Except Failure (List Path))) leafDisk =
        (.ok [], d') := by
  have found := find_distantRoot (n := 2044) (by decide)
  have place := locate_of_find found
  have isRoot : leafDisk.kind? (distantRoot 2044) = some .directory := kind?_of_find found rfl
  have opens : leafDisk.Opens (distantRoot 2044) := by
    rw [Opens, ← place]
    exact ⟨{}, rfl, rfl, rfl⟩
  have isName : IsName "a.css" := ⟨by decide, by decide, by decide, by decide⟩
  refine ⟨proper_leafDisk, isRoot, opens, ?_, ?_, ?_⟩
  · rw [← place]
    exact ⟨_, _, rfl⟩
  · rw [Path.extension?, Path.fileName?_join_name isName]
    decide +kernel
  · obtain ⟨files, d', ran, _, exact⟩ :=
      exists_find (s := of [] "css") (t := leafDisk) Disk.tells proper_leafDisk isRoot (by
        intro directory mem _
        obtain rfl := List.mem_singleton.1 mem
        exact opens)
    have exact : leafDisk.ShowsExactly [distantRoot 2044] "css" files := exact
    have none_left : files = [] := by
      rw [List.eq_nil_iff_forall_not_mem]
      intro path mem
      obtain ⟨_, directory, isHere, _, name, rfl, hasFile⟩ := exact.sound path mem
      obtain rfl := List.mem_singleton.1 isHere
      obtain ⟨rights, content, stands⟩ := hasFile.stands
      rw [← place] at stands
      obtain rfl := eq_of_stands_leafDisk stands
      exact absurd (short_of_usable isName hasFile.usable) (by decide)
    rw [none_left] at ran
    exact ⟨d', ran⟩

end MediaSweep
