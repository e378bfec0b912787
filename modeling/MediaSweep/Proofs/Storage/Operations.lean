import Mathlib.Data.List.TakeWhile
import MediaSweep.Proofs.Storage.Resolution

/-!
# What the operations on a disk do

Every operation that changes a disk sets one item and leaves all others as they were (`Disk.Sets`):
a directory is only made where nothing is, and a file is only written where nothing or a file is, so
nothing below the item is lost.  The item is set where the path leads.  An operation that is refused
changes nothing, by its type.

Reading tells what stands where the path leads.
-/

namespace MediaSweep

set_option autoImplicit false

namespace Item

/-- What kind of thing an item is. -/
def kind : Item → FileKind
  | file _ _ => .file
  | directory _ => .directory

theorem kind_item (node : Node) : node.item.kind = node.kind := by
  cases node <;> rfl

end Item

namespace Disk

variable {d d' : Disk} {path source target : Path} {location : Location} {item : Item}

/-! ## Setting one item -/

/-- One item was set and nothing else has changed; the disk is as proper as it was. -/
structure Sets (d : Disk) (location : Location) (item : Item) (d' : Disk) : Prop where
  current_eq : d'.current = d.current
  item?_eq : ∀ other, d'.item? other = if other = location then some item else d.item? other
  proper : d.Proper → d'.Proper

namespace Sets

theorem item?_self (sets : d.Sets location item d') : d'.item? location = some item := by
  rw [sets.item?_eq, if_pos rfl]

theorem item?_of_ne (sets : d.Sets location item d') {other : Location} (away : other ≠ location) :
    d'.item? other = d.item? other := by
  rw [sets.item?_eq, if_neg away]

/-- No directory is lost when an item is set where no directory was. -/
theorem within (sets : d.Sets location item d')
    (free : ∀ rights, d.item? location ≠ some (.directory rights)) : d.Within d' where
  current_eq := sets.current_eq
  directory := by
    intro other rights there
    rw [sets.item?_of_ne]
    · exact there
    · rintro rfl
      exact free rights there
  present := by
    intro other there
    rw [sets.item?_eq]
    split
    · rfl
    · exact there

end Sets

/-- A node with nothing below it takes the place of what is no directory, and only that changes. -/
theorem item?_put_leaf {parent : Location} {name : String} {rights : Rights} {node : Node}
    (leaf : ∀ inner, inner ≠ [] → node.at? inner = none)
    (there : d.item? parent = some (.directory rights))
    (free : ∀ r, d.item? (parent ++ [name]) ≠ some (.directory r)) (other : Location) :
    (d.put (parent ++ [name]) node).item? other =
      if other = parent ++ [name] then some node.item else d.item? other := by
  rw [item?_put there]
  split
  · rename_i below
    obtain ⟨inner, rfl⟩ := below
    have drop : (parent ++ [name] ++ inner).drop (parent.length + 1) = inner :=
      List.drop_left' (by simp)
    rw [drop]
    cases inner with
    | nil => simp
    | cons first rest =>
      rw [leaf _ (List.cons_ne_nil first rest), if_neg (by simp), item?_below free]
      rfl
  · rename_i away
    rw [if_neg]
    rintro rfl
    exact away (List.prefix_refl _)

/-- Putting a node with nothing below it where no directory is sets its item. -/
theorem sets_put {parent : Location} {name : String} {rights : Rights} (node : Node)
    (leaf : ∀ inner, inner ≠ [] → node.at? inner = none) (properNode : node.Proper)
    (isName : IsName name)
    (there : d.item? parent = some (.directory rights))
    (free : ∀ r, d.item? (parent ++ [name]) ≠ some (.directory r)) :
    d.Sets (parent ++ [name]) node.item (d.put (parent ++ [name]) node) where
  current_eq := rfl
  proper := fun proper => Node.Proper.putAt proper isName properNode parent
  item?_eq := item?_put_leaf leaf there free

/-! ## Places -/

/-- What is known of a place with a name in it: the pieces of the path before the name lead to its
directory, and only blank ones follow. -/
structure Place.Fits (p : Place) (d : Disk) (path : Path) : Prop where
  usable : path.IsUsable
  start : (d.item? (d.startOf path)).isSome
  split : ∃ front blanks, Path.pieces path.text = front ++ p.name :: blanks ∧
    (∀ piece ∈ blanks, piece = "") ∧ d.reach (d.startOf path) front = .ok p.parent
  directory : d.node? p.parent = some (.directory p.rights p.entries)
  search : p.rights.search = true
  isName : IsName p.name

/-- The pieces up to the last one that is not blank. -/
theorem exists_blanks {pieces : List String} {name : String} {before : List String}
    (backwards : pieces.reverse.dropWhile (· = "") = name :: before) :
    ∃ blanks, pieces = before.reverse ++ name :: blanks ∧ ∀ piece ∈ blanks, piece = "" := by
  refine ⟨(pieces.reverse.takeWhile (· = "")).reverse, ?_, fun piece mem => ?_⟩
  · have whole := congrArg List.reverse
      (List.takeWhile_append_dropWhile (p := (· = "")) (l := pieces.reverse))
    rw [List.reverse_reverse, List.reverse_append, backwards, List.reverse_cons,
      List.append_assoc] at whole
    exact whole.symm
  · simpa using List.mem_takeWhile_imp (List.mem_reverse.1 mem)

theorem fits_of_place {p : Place} (found : d.place path = .ok p)
    (named : p.isDirectoryItself = false) : p.Fits d path := by
  obtain ⟨⟨start, pieces⟩, begun, walking⟩ := exists_of_bind_eq_ok found
  obtain ⟨trail, walked, ending⟩ := exists_of_bind_eq_ok walking
  obtain ⟨on, place, rfl, usable⟩ := on_begin begun
  obtain ⟨way, onTrail⟩ := on.walk ((Path.pieces path.text).reverse.dropWhile (· = "")).tail.reverse
  rw [walked, place] at way
  have there := (onTrail trail walked).node?
  have startThere := on.item?
  rw [place] at startThere
  cases here : d.last trail with
  | file rights content =>
    rw [here] at ending
    cases ending
  | directory rights entries =>
    rw [here] at ending there
    simp only at ending
    split at ending
    · rename_i searchable
      obtain rfl := Except.ok.inj ending
      obtain ⟨⟨blank, here⟩, up⟩ := by simpa [Place.isDirectoryItself] using named
      cases backwards : (Path.pieces path.text).reverse.dropWhile (· = "") with
      | nil =>
        rw [backwards] at blank
        exact absurd rfl blank
      | cons name before =>
        rw [backwards] at way blank here up
        obtain ⟨blanks, whole, idle⟩ := exists_blanks backwards
        have isPiece : name ∈ Path.pieces path.text := by
          rw [whole]
          simp
        exact {
          usable := usable
          start := by
            rw [startThere]
            rfl
          split := ⟨before.reverse, blanks, by simpa [backwards] using whole, idle, way.symm⟩
          directory := there
          search := searchable
          isName := by
            simp only [List.headD_cons]
            exact ⟨blank, here, up, Path.unbroken_pieces _ name isPiece⟩ }
    · cases ending

namespace Place.Fits

variable {p : Place}

theorem item?_parent (fits : p.Fits d path) : d.item? p.parent = some (.directory p.rights) :=
  item?_of_node? fits.directory

theorem node?_location (fits : p.Fits d path) : d.node? p.location = p.node? :=
  node?_concat fits.directory p.name

/-- The place is where the path leads. -/
theorem locate_eq (fits : p.Fits d path) : d.locate path = p.location := by
  obtain ⟨front, blanks, whole, idle, reached⟩ := fits.split
  rw [locate, whole, leadsTo_append, leadsTo_cons, ← leadsTo_of_reach reached,
    leadFrom_name fits.isName,
    leadsTo_eq_self (fun piece mem => .inl (idle piece mem))]
  rfl

/-- A directory at the place is found by the path. -/
theorem kind?_eq_directory {rights : Rights} (fits : p.Fits d path) (within : d.Within d')
    (short : ¬ nameLimit < p.name.utf8ByteSize)
    (made : d'.item? p.location = some (.directory rights)) : d'.kind? path = some .directory := by
  obtain ⟨front, blanks, whole, idle, reached⟩ := fits.split
  have skip : ∀ pieces : List String, (∀ piece ∈ pieces, piece = "") →
      d'.reach p.location pieces = .ok p.location := by
    intro pieces blank
    induction pieces with
    | nil => rfl
    | cons piece rest ih =>
      obtain ⟨here, behind⟩ := List.forall_mem_cons.1 blank
      rw [reach, made]
      simp only [if_pos here]
      exact ih behind
  have step : d'.reachStep p.parent p.name = .ok p.location := by
    rw [reachStep, if_neg fits.isName.not_here, if_neg fits.isName.not_up, if_neg short,
      if_pos]
    · rfl
    · show (d'.item? p.location).isSome = true
      rw [made]
      rfl
  have arrives : d'.find path = .ok p.location := by
    rw [find_eq_ok_iff, startOf_eq within.current_eq]
    refine ⟨fits.usable, within.present _ fits.start, ?_⟩
    rw [whole, reach_append, within.reach reached]
    show d'.reach p.parent (p.name :: blanks) = _
    rw [reach, within.directory _ _ fits.item?_parent]
    simp only [if_neg fits.isName.nonempty, if_pos fits.search, step]
    exact skip blanks idle
  rw [kind?_eq_directory_iff, Disk.locate_eq within.current_eq, fits.locate_eq]
  exact ⟨rights, arrives, made⟩

end Place.Fits

/-! ## Making and writing -/

/-- **A directory is made where the path leads and nothing was**, and the path then leads to it. -/
theorem of_makeDir (made : d.makeDir path = .ok d') :
    d.Sets (d.locate path) (.directory {}) d' ∧ d.item? (d.locate path) = none ∧
      d'.kind? path = some .directory := by
  obtain ⟨p, placed, making⟩ := exists_of_bind_eq_ok made
  split at making
  · cases making
  rename_i named
  have fits := fits_of_place placed (Bool.eq_false_iff.2 named)
  split at making
  · cases making
  rename_i short
  split at making
  · cases making
  rename_i absent
  split at making
  · rename_i writable
    obtain rfl := Except.ok.inj making
    have free : d.item? p.location = none := by
      rw [item?, fits.node?_location, Option.not_isSome_iff_eq_none.1 absent]
      rfl
    have sets : d.Sets p.location (.directory {}) (d.put p.location (.directory {} [])) := by
      refine sets_put (.directory {} []) (fun inner deeper => Node.at?_empty deeper)
        (.directory {} (by simp) (by simp) (by simp)) fits.isName fits.item?_parent
        fun r there => ?_
      rw [show p.parent ++ [p.name] = p.location from rfl, free] at there
      cases there
    have within := sets.within fun r there => by
      rw [free] at there
      cases there
    rw [fits.locate_eq]
    exact ⟨sets, free, fits.kind?_eq_directory within short sets.item?_self⟩
  · cases making

/-- What `writable` allows: a file is there already or nothing is. -/
theorem fits_of_writable {rights? : Option Rights}
    (allowed : d.writable path = .ok (location, rights?)) :
    ∃ p : Place, p.Fits d path ∧ location = p.location ∧
      ∀ r, d.item? p.location ≠ some (.directory r) := by
  obtain ⟨p, placed, checking⟩ := exists_of_bind_eq_ok allowed
  split at checking
  · cases checking
  rename_i plain
  have fits := fits_of_place placed (Bool.eq_false_iff.2 (not_or.1 plain).1)
  split at checking
  · cases checking
  refine ⟨p, fits, ?_⟩
  rw [item?, fits.node?_location]
  split at checking
  · cases checking
  · rename_i rights content found
    rw [found]
    split at checking
    · exact ⟨(congrArg Prod.fst (Except.ok.inj checking)).symm, fun r there => by cases there⟩
    · cases checking
  · rename_i absent
    rw [absent]
    split at checking
    · exact ⟨(congrArg Prod.fst (Except.ok.inj checking)).symm, fun r there => by cases there⟩
    · cases checking

theorem sets_of_writable {rights? : Option Rights} {content : ByteArray} {rights : Rights}
    (allowed : d.writable path = .ok (location, rights?)) :
    d.Sets (d.locate path) (.file rights content) (d.put location (.file rights content)) ∧
      ∀ r, d.item? (d.locate path) ≠ some (.directory r) := by
  obtain ⟨p, fits, rfl, free⟩ := fits_of_writable allowed
  rw [fits.locate_eq]
  exact ⟨sets_put (.file rights content) (fun inner deeper => Node.at?_file deeper)
    (.file rights content) fits.isName fits.item?_parent free, free⟩

/-- **A file is written where the path leads**, and no directory was there. -/
theorem of_writeBytes {content : ByteArray} (written : d.writeBytes path content = .ok d') :
    ∃ rights, d.Sets (d.locate path) (.file rights content) d' ∧
      ∀ r, d.item? (d.locate path) ≠ some (.directory r) := by
  obtain ⟨⟨location, rights?⟩, allowed, writing⟩ := exists_of_bind_eq_ok written
  obtain rfl := Except.ok.inj writing
  exact ⟨_, sets_of_writable allowed⟩

/-! ## Reading -/

/-- What is read is the content of the file where the path leads. -/
theorem of_readBytes {content : ByteArray} (read : d.readBytes path = .ok content) :
    ∃ rights, d.item? (d.locate path) = some (.file rights content) := by
  obtain ⟨node, resolved, reading⟩ := exists_of_bind_eq_ok read
  have there := item?_of_node? (node?_of_resolve resolved)
  cases node with
  | file rights held =>
    simp only at reading
    split at reading
    · obtain rfl := Except.ok.inj reading
      exact ⟨rights, there⟩
    · cases reading
  | directory rights entries =>
    simp only at reading
    split at reading <;> cases reading

/-- What is found at a path stands where it leads. -/
theorem of_kind? {kind : FileKind} (found : d.kind? path = some kind) :
    ∃ item, d.item? (d.locate path) = some item ∧ item.kind = kind := by
  rw [kind?] at found
  cases resolved : d.resolve path with
  | error fault =>
    rw [resolved] at found
    cases found
  | ok node =>
    rw [resolved] at found
    refine ⟨node.item, item?_of_node? (node?_of_resolve resolved), ?_⟩
    rw [Item.kind_item]
    exact Option.some.inj found

/-- **A copy has the content of its source.** -/
theorem of_copyFile (copied : d.copyFile source target = .ok d') :
    ∃ content held rights, d.item? (d.locate source) = some (.file held content) ∧
      d.Sets (d.locate target) (.file rights content) d' ∧
        ∀ r, d.item? (d.locate target) ≠ some (.directory r) := by
  obtain ⟨content, read, copying⟩ := exists_of_bind_eq_ok copied
  obtain ⟨⟨location, rights?⟩, allowed, writing⟩ := exists_of_bind_eq_ok copying
  obtain rfl := Except.ok.inj writing
  obtain ⟨held, there⟩ := of_readBytes read
  exact ⟨content, held, _, there, sets_of_writable allowed⟩

/-- A directory lists everything that stands directly in it. -/
theorem mem_of_list {entries : List (String × FileKind)} {name : String}
    (listed : d.list path = .ok entries) (stands : d.item? (d.locate path ++ [name]) = some item) :
    (name, item.kind) ∈ entries := by
  obtain ⟨node, resolved, listing⟩ := exists_of_bind_eq_ok listed
  have there := node?_of_resolve resolved
  cases node with
  | file rights content => cases listing
  | directory rights held =>
    simp only at listing
    split at listing
    · obtain rfl := Except.ok.inj listing
      obtain ⟨node, found, rfl⟩ := exists_node_of_item? stands
      rw [node?_concat there] at found
      obtain ⟨_, _, rfl, _⟩ := List.lookup_eq_some_iff.1 found
      refine List.mem_map.2 ⟨(name, node), by simp, ?_⟩
      rw [Item.kind_item]
    · cases listing

/-- **A directory of a proper disk lists nothing else**, and under names that can be written. -/
theorem of_list {entries : List (String × FileKind)} (proper : d.Proper)
    (listed : d.list path = .ok entries) :
    (∃ rights, d.item? (d.locate path) = some (.directory rights)) ∧
      ∀ entry ∈ entries, IsName entry.1 ∧
        ∃ item, d.item? (d.locate path ++ [entry.1]) = some item ∧ item.kind = entry.2 := by
  obtain ⟨node, resolved, listing⟩ := exists_of_bind_eq_ok listed
  have there := node?_of_resolve resolved
  cases node with
  | file rights content => cases listing
  | directory rights held =>
    simp only at listing
    split at listing
    · obtain rfl := Except.ok.inj listing
      refine ⟨⟨rights, item?_of_node? there⟩, fun entry mem => ?_⟩
      obtain ⟨⟨name, node⟩, isHeld, rfl⟩ := List.mem_map.1 mem
      exact ⟨proper.isName there isHeld, node.item,
        item?_of_node? ((proper.mem_iff there).1 isHeld), Item.kind_item node⟩
    · cases listing

variable {node : Node}

theorem resolve_of_find (found : d.find path = .ok location)
    (there : d.node? location = some node) : d.resolve path = .ok node :=
  resolve_eq_ok_iff.2 ⟨location, found, there⟩

theorem kind?_of_find (found : d.find path = .ok location) (there : d.node? location = some node) :
    d.kind? path = some node.kind := by
  rw [kind?, resolve_of_find found there]
  rfl

theorem list_of_find {rights : Rights} {entries : List (String × Node)}
    (found : d.find path = .ok location)
    (there : d.node? location = some (.directory rights entries)) (readable : rights.read = true) :
    d.list path = .ok (entries.map fun entry => (entry.1, entry.2.kind)) := by
  rw [list, resolve_of_find found there]
  exact if_pos readable

theorem readBytes_of_find {rights : Rights} {content : ByteArray}
    (found : d.find path = .ok location)
    (there : d.node? location = some (.file rights content)) (readable : rights.read = true) :
    d.readBytes path = .ok content := by
  rw [readBytes, resolve_of_find found there]
  exact if_pos readable

end Disk

end MediaSweep
