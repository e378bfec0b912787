import MediaSweep.Proofs.Storage.Joining
import MediaSweep.Proofs.Storage.Operations

/-!
# Rewriting files

Giving a file another content leaves the current directory, all directories and all rights as they
were.  Paths are resolved by these alone, so they lead where they led before
(`Disk.SameModes.find_eq`), and what they lead to can be read and written as before unless it is the
file that was rewritten (`Disk.SameModes.readBytes_eq`).

A file that is found is written in place, if its owner may write it (`Disk.writable_of_find`), and
nothing else changes (`Disk.item?_put_file`).  Two files can be rewritten in either order
(`Disk.put_comm`).
-/

namespace MediaSweep

set_option autoImplicit false

/-! ## Putting nodes in place of others -/

namespace Node

variable {name other : String} {node node' held : Node} {inner : Location} {rights : Rights}
  {entries within : List (String × Node)}

theorem putEntry_of_present (present : (entries.lookup name).isSome) :
    putEntry name node entries = entries.map fun e => if e.1 = name then (name, node) else e :=
  if_pos present

theorem isSome_lookup_putEntry (present : (entries.lookup name).isSome) :
    ((putEntry other node entries).lookup name).isSome := by
  rw [lookup_putEntry]
  split
  · rfl
  · exact present

/-- What is put later counts. -/
theorem putEntry_putEntry (present : (entries.lookup name).isSome) :
    putEntry name node (putEntry name node' entries) = putEntry name node entries := by
  rw [putEntry_of_present (isSome_lookup_putEntry present), putEntry_of_present present,
    putEntry_of_present present, List.map_map]
  refine List.map_congr_left fun e _ => ?_
  by_cases here : e.1 = name
  · simp [here]
  · simp [here]

/-- Entries with different names are replaced in either order. -/
theorem putEntry_comm (differ : name ≠ other) (present : (entries.lookup name).isSome)
    (present' : (entries.lookup other).isSome) :
    putEntry name node (putEntry other node' entries) =
      putEntry other node' (putEntry name node entries) := by
  rw [putEntry_of_present (isSome_lookup_putEntry present), putEntry_of_present present',
    putEntry_of_present (isSome_lookup_putEntry present'), putEntry_of_present present,
    List.map_map, List.map_map]
  refine List.map_congr_left fun e _ => ?_
  by_cases here : e.1 = name
  · simp [here, differ]
  · by_cases there : e.1 = other
    · simp [there, differ.symm]
    · simp [here, there]

theorem putAt_inside {first : String} {rest : Location}
    (lookedUp : entries.lookup name = some (.directory rights within)) :
    putAt node (name :: first :: rest) entries =
      putEntry name (.directory rights (putAt node (first :: rest) within)) entries := by
  rw [putAt, lookedUp]
  simp

/-- A node with another one put at a location inside, which replaces it at the empty location. -/
def replaceAt (node : Node) : Location → Node → Node
  | _ :: _, .file rights content => .file rights content
  | first :: rest, .directory rights entries =>
    .directory rights (putAt node (first :: rest) entries)
  | [], _ => node

/-- Putting a node where something is replaces the first entry on the way. -/
theorem putAt_of_present (lookedUp : entries.lookup name = some held)
    (present : (held.at? inner).isSome) :
    putAt node (name :: inner) entries = putEntry name (replaceAt node inner held) entries := by
  cases inner with
  | nil => rfl
  | cons first rest =>
    cases held with
    | file r content => cases present
    | directory r within => exact putAt_inside lookedUp

/-- **Different files are replaced in either order.** -/
theorem putAt_comm {one two : Location} {r r' : Rights} {c c' : ByteArray} (differ : one ≠ two)
    (isFile : (directory rights entries).at? one = some (.file r c))
    (isFile' : (directory rights entries).at? two = some (.file r' c')) :
    putAt node one (putAt node' two entries) = putAt node' two (putAt node one entries) := by
  induction one generalizing two rights entries with
  | nil => cases isFile
  | cons name inner ih =>
    cases two with
    | nil => cases isFile'
    | cons other inner' =>
      obtain ⟨held, lookedUp, stands⟩ := Option.bind_eq_some_iff.1 isFile
      obtain ⟨held', lookedUp', stands'⟩ := Option.bind_eq_some_iff.1 isFile'
      by_cases same : name = other
      · subst same
        obtain rfl : held = held' := Option.some.inj (lookedUp.symm.trans lookedUp')
        have deeper : inner ≠ inner' := fun equal => differ (congrArg (name :: ·) equal)
        cases held with
        | file _ _ =>
          -- nothing lies below a file, so both locations end here
          cases inner <;> cases inner' <;> simp_all
        | directory inside within =>
          cases inner with
          | nil => cases stands
          | cons first rest =>
            cases inner' with
            | nil => cases stands'
            | cons first' rest' =>
              have present : (entries.lookup name).isSome := by rw [lookedUp]; rfl
              rw [putAt_inside lookedUp', putAt_inside lookedUp, putAt_inside (by
                rw [lookup_putEntry, if_pos rfl]), putAt_inside (by
                rw [lookup_putEntry, if_pos rfl]), putEntry_putEntry present,
                putEntry_putEntry present, ih deeper stands stands']
      · have present : (entries.lookup name).isSome := by rw [lookedUp]; rfl
        have present' : (entries.lookup other).isSome := by rw [lookedUp']; rfl
        have found : (held.at? inner).isSome := by rw [stands]; rfl
        have found' : (held'.at? inner').isSome := by rw [stands']; rfl
        rw [putAt_of_present lookedUp' found', putAt_of_present lookedUp found,
          putAt_of_present (by rw [lookup_putEntry, if_neg same, lookedUp]) found,
          putAt_of_present (by rw [lookup_putEntry, if_neg (Ne.symm same), lookedUp']) found',
          putEntry_comm same present present']

end Node

namespace Item

/-- What the way of a path hangs on: the kind of an item and its rights. -/
def mode : Item → FileKind × Rights
  | file rights _ => (.file, rights)
  | directory rights => (.directory, rights)

/-- What reading an item comes to. -/
def read : Item → Attempt ByteArray
  | file rights content => if rights.read then .ok content else .error .permission
  | directory rights => if rights.read then .error .isDirectory else .error .permission

end Item

namespace Disk

variable {d d' d'' : Disk} {path : Path} {location other : Location} {rights : Rights}
  {content : ByteArray} {item : Item} {fault : FileFault}

/-! ## Where a path is found -/

theorem reach_of_directory (there : d.item? location = some (.directory rights)) (piece : String)
    (rest : List String) :
    d.reach location (piece :: rest) =
      if piece = "" then d.reach location rest
      else if rights.search then (d.reachStep location piece).bind (d.reach · rest)
      else .error .permission := by
  rw [reach, there]

theorem reach_of_other (away : ∀ rights, d.item? location ≠ some (.directory rights))
    (piece : String) (rest : List String) :
    d.reach location (piece :: rest) = .error .notDirectory := by
  rw [reach]
  split
  · exact absurd ‹_› (away _)
  · rfl

/-- Following a path along the nodes comes to where it is found. -/
theorem map_location_follow (d : Disk) (path : Path) :
    (d.follow path).map Trail.location = d.find path := by
  show ((d.begin path).bind _).map _ = _
  rw [begin_eq, find]
  split
  · rfl
  · split
    · rfl
    · split
      · rfl
      · obtain ⟨leads, present⟩ := Trail.extend_root d (d.startOf path)
        rw [← present]
        cases extended : Trail.extend [] (d.startOf path) d.root with
        | none => rfl
        | some trail =>
          obtain ⟨on, place⟩ := leads trail extended
          rw [← place]
          exact (on.walk (Path.pieces path.text)).1

/-- A path that is not found is refused for the same reason by all that resolve it. -/
theorem resolve_of_find_error (lost : d.find path = .error fault) :
    d.resolve path = .error fault := by
  rw [← map_location_follow] at lost
  cases followed : d.follow path with
  | ok trail =>
    rw [followed] at lost
    cases lost
  | error found =>
    rw [followed] at lost
    obtain rfl := Except.error.inj lost
    rw [resolve, followed]
    rfl

/-- **What is read is what stands where the path is found.** -/
theorem readBytes_eq_read (found : d.find path = .ok location)
    (there : d.item? location = some item) : d.readBytes path = item.read := by
  obtain ⟨node, stands, rfl⟩ := exists_node_of_item? there
  rw [readBytes, resolve_of_find found stands]
  cases node <;> rfl

theorem readBytes_of_find_error (lost : d.find path = .error fault) :
    d.readBytes path = .error fault := by
  rw [readBytes, resolve_of_find_error lost]
  rfl

/-- What is read stands where the path is found, in a file that may be read. -/
theorem exists_find_of_readBytes (read : d.readBytes path = .ok content) :
    ∃ location rights, d.find path = .ok location ∧
      d.item? location = some (.file rights content) ∧ rights.read = true := by
  cases found : d.find path with
  | error fault =>
    rw [readBytes_of_find_error found] at read
    cases read
  | ok location =>
    obtain ⟨node, _, stands⟩ := exists_resolve found
    have there := item?_of_node? stands
    rw [readBytes_eq_read found there] at read
    cases node with
    | directory rights entries =>
      simp only [Node.item, Item.read] at read
      split at read <;> cases read
    | file rights held =>
      simp only [Node.item, Item.read] at read
      split at read
      · rename_i readable
        obtain rfl := Except.ok.inj read
        exact ⟨location, rights, rfl, there, readable⟩
      · cases read

/-! ## The same modes -/

/-- Every item has the same kind and the same rights on both disks; files may hold other contents.
-/
structure SameModes (d d' : Disk) : Prop where
  current_eq : d'.current = d.current
  mode_eq : ∀ location, (d'.item? location).map Item.mode = (d.item? location).map Item.mode

namespace SameModes

theorem refl (d : Disk) : d.SameModes d :=
  ⟨rfl, fun _ => rfl⟩

theorem symm (same : d.SameModes d') : d'.SameModes d :=
  ⟨same.current_eq.symm, fun location => (same.mode_eq location).symm⟩

theorem trans (same : d.SameModes d') (further : d'.SameModes d'') : d.SameModes d'' where
  current_eq := further.current_eq.trans same.current_eq
  mode_eq := fun location => (further.mode_eq location).trans (same.mode_eq location)

theorem isSome_eq (same : d.SameModes d') (location : Location) :
    (d'.item? location).isSome = (d.item? location).isSome := by
  rw [← Option.isSome_map (f := Item.mode), same.mode_eq, Option.isSome_map]

theorem directory (same : d.SameModes d')
    (there : d.item? location = some (.directory rights)) :
    d'.item? location = some (.directory rights) := by
  have mode := same.mode_eq location
  rw [there] at mode
  obtain ⟨item, stands, kind⟩ := Option.map_eq_some_iff.1 mode
  cases item with
  | file r c => cases kind
  | directory r =>
    obtain rfl : r = rights := congrArg Prod.snd kind
    exact stands

theorem reachStep_eq (same : d.SameModes d') (location : Location) (piece : String) :
    d'.reachStep location piece = d.reachStep location piece := by
  rw [reachStep, reachStep, same.isSome_eq]

theorem reach_eq (same : d.SameModes d') (location : Location) (pieces : List String) :
    d'.reach location pieces = d.reach location pieces := by
  induction pieces generalizing location with
  | nil => rfl
  | cons piece rest ih =>
    by_cases isDirectory : ∃ rights, d.item? location = some (.directory rights)
    · obtain ⟨rights, there⟩ := isDirectory
      rw [reach_of_directory there, reach_of_directory (same.directory there)]
      simp only [ih, same.reachStep_eq]
    · rw [reach_of_other fun rights there => isDirectory ⟨rights, same.symm.directory there⟩,
        reach_of_other fun rights there => isDirectory ⟨rights, there⟩]

/-- **Paths lead where they led**, and are refused for the same reasons. -/
theorem find_eq (same : d.SameModes d') (path : Path) : d'.find path = d.find path := by
  rw [find, find, startOf_eq same.current_eq, same.isSome_eq, same.reach_eq]

/-- **A path reads what it read** if what it leads to was left as it was. -/
theorem readBytes_eq (same : d.SameModes d')
    (kept : ∀ location, d.find path = .ok location → d'.item? location = d.item? location) :
    d'.readBytes path = d.readBytes path := by
  cases found : d.find path with
  | error fault =>
    rw [readBytes_of_find_error found,
      readBytes_of_find_error ((same.find_eq path).trans found)]
  | ok location =>
    obtain ⟨node, _, stands⟩ := exists_resolve found
    have there := item?_of_node? stands
    rw [readBytes_eq_read found there, readBytes_eq_read ((same.find_eq path).trans found)
      ((kept location found).trans there)]

end SameModes

/-! ## Writing a file that is found -/

theorem exists_concat {names : List String} (some_name : names ≠ []) :
    ∃ front name, names = front ++ [name] :=
  ⟨names.dropLast, names.getLast some_name, (List.dropLast_concat_getLast some_name).symm⟩

/-- What a directory lies in is a directory; the root counts as lying in itself. -/
theorem exists_directory_dropLast (there : d.item? location = some (.directory rights)) :
    ∃ inside, d.item? location.dropLast = some (.directory inside) := by
  by_cases isRoot : location = []
  · rw [isRoot]
    exact ⟨{}, rfl⟩
  · obtain ⟨parent, name, rfl⟩ := exists_concat isRoot
    rw [List.dropLast_concat]
    have found : (d.item? (parent ++ [name])).isSome := by
      rw [there]
      rfl
    exact exists_directory found

/-- The last piece on the way to a file is its name, in a directory that the pieces before lead to.
-/
theorem exists_of_reach_file {start : Location} {pieces : List String} (stated : pieces ≠ [])
    (reached : d.reach start pieces = .ok location)
    (there : d.item? location = some (.file rights content)) :
    ∃ front name parent inside, pieces = front ++ [name] ∧ d.reach start front = .ok parent ∧
      d.item? parent = some (.directory inside) ∧ inside.search = true ∧
      (name ≠ "" ∧ name ≠ "." ∧ name ≠ "..") ∧ ¬ nameLimit < name.utf8ByteSize ∧
      location = parent ++ [name] := by
  have not_file : ∀ {inside}, d.item? location ≠ some (.directory inside) := by
    intro inside directory
    rw [there] at directory
    cases directory
  obtain ⟨front, name, rfl⟩ := exists_concat stated
  rw [reach_append] at reached
  obtain ⟨parent, before, reached⟩ := exists_of_bind_eq_ok reached
  obtain ⟨inside, isDirectory⟩ : ∃ inside, d.item? parent = some (.directory inside) := by
    by_contra other
    rw [reach_of_other fun inside stands => other ⟨inside, stands⟩] at reached
    cases reached
  rw [reach_of_directory isDirectory] at reached
  split at reached
  · obtain rfl := Except.ok.inj reached
    exact absurd isDirectory not_file
  rename_i stated
  split at reached
  · rename_i searchable
    obtain ⟨next, step, last⟩ := exists_of_bind_eq_ok reached
    obtain rfl := Except.ok.inj last
    rw [reachStep] at step
    split at step
    · obtain rfl := Except.ok.inj step
      exact absurd isDirectory not_file
    rename_i away
    split at step
    · obtain rfl := Except.ok.inj step
      obtain ⟨_, above⟩ := exists_directory_dropLast isDirectory
      exact absurd above not_file
    rename_i down
    split at step
    · cases step
    rename_i short
    split at step
    · exact ⟨front, name, parent, inside, rfl, before, isDirectory, searchable,
        ⟨stated, away, down⟩, short, (Except.ok.inj step).symm⟩
    · cases step
  · cases reached

/-- The place of a path that leads to a file is this file. -/
theorem exists_place_of_find (found : d.find path = .ok location)
    (there : d.item? location = some (.file rights content)) :
    ∃ p : Place, d.place path = .ok p ∧ p.isDirectoryItself = false ∧ p.slashed = false ∧
      ¬ nameLimit < p.name.utf8ByteSize ∧ p.location = location ∧
      p.node? = some (.file rights content) := by
  obtain ⟨usable, present, reached⟩ := find_eq_ok_iff.1 found
  obtain ⟨front, name, parent, inside, whole, before, isDirectory, searchable,
    ⟨stated, away, down⟩, short, rfl⟩ :=
      exists_of_reach_file (Path.pieces_ne_nil path.text) reached there
  obtain ⟨start, begun⟩ := exists_begin usable present
  obtain ⟨on, place, _⟩ := on_begin begun
  obtain ⟨way, onStop⟩ := on.walk front
  rw [place, before] at way
  cases walked : d.walk start front with
  | error fault =>
    rw [walked] at way
    cases way
  | ok trail =>
    rw [walked] at way
    obtain rfl : Trail.location trail = parent := Except.ok.inj way
    obtain ⟨entries, isNode⟩ := exists_entries_of_item? isDirectory
    have last : d.last trail = .directory inside entries :=
      Option.some.inj ((onStop trail walked).node?.symm.trans isNode)
    have backwards : (front ++ [name]).reverse.dropWhile (· = "") = name :: front.reverse := by
      rw [List.reverse_append, List.reverse_singleton, List.singleton_append,
        List.dropWhile_cons_of_neg (by simpa using stated)]
    refine ⟨⟨Trail.location trail, inside, entries, name, false⟩, ?_, ?_, rfl, short, rfl, ?_⟩
    · rw [Disk.place, begun, whole]
      show ((d.walk start _).bind _ : Attempt Place) = _
      rw [backwards, List.tail_cons, List.reverse_reverse, walked]
      simp [Except.bind, last, searchable, stated]
    · simp [Place.isDirectoryItself, stated, away, down]
    · rw [Place.node?, ← node?_concat isNode]
      obtain ⟨node, stands, isFile⟩ := exists_node_of_item? there
      cases node with
      | directory r e => cases isFile
      | file r c =>
        obtain ⟨rfl, rfl⟩ := Item.file.inj isFile
        exact stands

/-- **A file that is found is written in place**, if its owner may write it. -/
theorem writable_of_find (found : d.find path = .ok location)
    (there : d.item? location = some (.file rights content)) :
    d.writable path =
      if rights.write then .ok (location, some rights) else .error .permission := by
  obtain ⟨p, placed, named, unslashed, short, place, isFile⟩ := exists_place_of_find found there
  rw [writable, placed]
  show (if p.isDirectoryItself = true ∨ p.slashed = true then _ else _ : Attempt _) = _
  rw [if_neg (by simp [named, unslashed]), if_neg short, isFile, place]

theorem writeBytes_of_find {bytes : ByteArray} (found : d.find path = .ok location)
    (there : d.item? location = some (.file rights content)) :
    d.writeBytes path bytes =
      if rights.write then .ok (d.put location (.file rights bytes)) else .error .permission := by
  rw [writeBytes, writable_of_find found there]
  split <;> rfl

/-- **Rewriting a file changes nothing else.** -/
theorem item?_put_file {bytes : ByteArray} (there : d.item? location = some (.file rights content))
    (other : Location) :
    (d.put location (.file rights bytes)).item? other =
      if other = location then some (.file rights bytes) else d.item? other := by
  have not_directory : ∀ inside, d.item? location ≠ some (.directory inside) := by
    intro inside directory
    rw [there] at directory
    cases directory
  by_cases isRoot : location = []
  · rw [isRoot] at not_directory
    exact absurd rfl (not_directory {})
  · obtain ⟨parent, name, rfl⟩ := exists_concat isRoot
    have present : (d.item? (parent ++ [name])).isSome := by
      rw [there]
      rfl
    obtain ⟨inside, isDirectory⟩ := exists_directory present
    exact item?_put_leaf (fun inner deeper => Node.at?_file deeper) isDirectory not_directory other

theorem sameModes_put_file {bytes : ByteArray}
    (there : d.item? location = some (.file rights content)) :
    d.SameModes (d.put location (.file rights bytes)) where
  current_eq := rfl
  mode_eq := by
    intro other
    rw [item?_put_file there]
    split
    · rename_i here
      rw [here, there]
      rfl
    · rfl

/-- **Two files are rewritten in either order.** -/
theorem put_comm {node node' : Node} {rights' : Rights} {content' : ByteArray}
    (differ : location ≠ other) (isFile : d.item? location = some (.file rights content))
    (isFile' : d.item? other = some (.file rights' content')) :
    (d.put location node).put other node' = (d.put other node').put location node := by
  have stands : ∀ {place : Location} {r : Rights} {c : ByteArray},
      d.item? place = some (.file r c) → d.node? place = some (.file r c) := by
    intro place r c there
    obtain ⟨found, stands, same⟩ := exists_node_of_item? there
    cases found with
    | directory r e => cases same
    | file r c =>
      obtain ⟨rfl, rfl⟩ := Item.file.inj same
      exact stands
  rw [put, put, put, put,
    Node.putAt_comm differ.symm (stands isFile') (stands isFile)]

end Disk

end MediaSweep
