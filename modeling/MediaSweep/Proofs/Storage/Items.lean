import MediaSweep.Storage.Disk

/-!
# The items of a disk

A disk is looked at one location at a time.  What stands at a location is an item: a file with its
content, or a directory without what it holds, since that stands at longer locations.  Seen this way
a change has a place.  Putting a node at a location changes the items there and below and no other
(`item?_put`), not even those of the directories that it lies in.

Everything on a disk lies in a directory (`exists_directory`).  A disk is proper when its names can
be written in a path and no directory has the same name twice: a name with a slash in it, one that
stands for another directory or the second one of its kind could not be reached.
-/

namespace MediaSweep

set_option autoImplicit false

/-- What stands at a location, without what lies below it. -/
inductive Item where
  | file (rights : Rights) (content : ByteArray)
  | directory (rights : Rights)

namespace Node

variable {name : String} {inner outer location : Location} {node : Node} {rights : Rights}
  {entries : List (String × Node)}

/-- What stands where a node is, without what lies below it. -/
def item : Node → Item
  | file rights content => .file rights content
  | directory rights _ => .directory rights

@[simp]
theorem at?_nil (node : Node) : node.at? [] = some node := by
  cases node <;> rfl

@[simp]
theorem at?_cons_directory :
    (directory rights entries).at? (name :: inner) = (entries.lookup name).bind (at? inner) :=
  rfl

@[simp]
theorem at?_file {content : ByteArray} (deeper : location ≠ []) :
    (file rights content).at? location = none := by
  cases location with
  | nil => exact absurd rfl deeper
  | cons name rest => rfl

theorem at?_empty (deeper : location ≠ []) : (directory rights []).at? location = none := by
  cases location with
  | nil => exact absurd rfl deeper
  | cons name rest => rfl

theorem at?_append (node : Node) (outer inner : Location) :
    node.at? (outer ++ inner) = (node.at? outer).bind (at? inner) := by
  induction outer generalizing node with
  | nil => simp
  | cons name rest ih =>
    cases node with
    | file rights content => rfl
    | directory rights entries =>
      rw [List.cons_append, at?_cons_directory, at?_cons_directory, Option.bind_assoc]
      exact congrArg _ (funext ih)

/-- Putting a node into a directory further in replaces the entry for that directory. -/
theorem putAt_within {outer : String} {held : List (String × Node)} {inside : Rights}
    (lookedUp : entries.lookup outer = some (directory inside held)) (rest : Location) :
    putAt node (outer :: rest ++ [name]) entries =
      putEntry outer (directory inside (putAt node (rest ++ [name]) held)) entries := by
  rw [List.cons_append, putAt, lookedUp]
  simp

/-- Nothing is put where no directory is on the way. -/
theorem putAt_blocked {outer : String}
    (blocked : ∀ inside held, entries.lookup outer ≠ some (directory inside held))
    (rest : Location) : putAt node (outer :: rest ++ [name]) entries = entries := by
  rw [List.cons_append, putAt]
  · split
    · exact absurd ‹_› (blocked _ _)
    · rfl
  · simp

/-- What stands at a location after a node was put at one: the items of the node there and below,
and everything else as it was.  The directory that the node is put into has to exist. -/
theorem item_at?_putAt {parent other : Location} {held : List (String × Node)} {inside : Rights}
    (there : (directory rights entries).at? parent = some (directory inside held)) :
    ((directory rights (putAt node (parent ++ [name]) entries)).at? other).map item =
      if parent ++ [name] <+: other then
        (node.at? (other.drop (parent.length + 1))).map item
      else ((directory rights entries).at? other).map item := by
  induction parent generalizing rights entries other with
  | nil =>
    cases other with
    | nil => rfl
    | cons first behind =>
      rw [List.nil_append, putAt, at?_cons_directory, lookup_putEntry]
      by_cases same : first = name
      · subst same
        simp
      · simp [same, Ne.symm same]
  | cons outer rest ih =>
    obtain ⟨found, lookedUp, within⟩ := Option.bind_eq_some_iff.1 there
    -- only a directory has something inside, and the rest of the way leads through it
    obtain ⟨outerRights, outerHeld, rfl⟩ : ∃ r h, found = directory r h := by
      cases found with
      | directory r h => exact ⟨r, h, rfl⟩
      | file r c => cases rest <;> simp at within
    rw [putAt_within lookedUp]
    cases other with
    | nil => rfl
    | cons first behind =>
      rw [at?_cons_directory, lookup_putEntry]
      by_cases same : first = outer
      · subst same
        rw [if_pos rfl, Option.bind_some, ih within, at?_cons_directory, lookedUp,
          Option.bind_some]
        simp
      · simp [same, Ne.symm same]

end Node

namespace Disk

variable {d : Disk} {location parent other : Location} {name : String} {node : Node}
  {rights : Rights} {entries : List (String × Node)}

/-- What stands at a location. -/
def item? (d : Disk) (location : Location) : Option Item :=
  (d.node? location).map Node.item

theorem item?_of_node? (there : d.node? location = some node) :
    d.item? location = some node.item := by
  rw [item?, there, Option.map_some]

theorem node?_append (d : Disk) (outer inner : Location) :
    d.node? (outer ++ inner) = (d.node? outer).bind (Node.at? inner) :=
  Node.at?_append d.root outer inner

theorem node?_concat (there : d.node? parent = some (.directory rights entries)) (name : String) :
    d.node? (parent ++ [name]) = entries.lookup name := by
  rw [node?_append, there, Option.bind_some, Node.at?_cons_directory]
  cases entries.lookup name <;> simp

theorem exists_node_of_item? {item : Item} (there : d.item? location = some item) :
    ∃ node, d.node? location = some node ∧ node.item = item :=
  Option.map_eq_some_iff.1 there

theorem exists_entries_of_item? (there : d.item? location = some (.directory rights)) :
    ∃ entries, d.node? location = some (.directory rights entries) := by
  obtain ⟨node, found, seen⟩ := exists_node_of_item? there
  cases node with
  | file r c => cases seen
  | directory r entries =>
    obtain rfl : r = rights := by simpa [Node.item] using seen
    exact ⟨entries, found⟩

/-- **Everything lies in a directory.** -/
theorem exists_directory (there : (d.item? (parent ++ [name])).isSome) :
    ∃ rights, d.item? parent = some (.directory rights) := by
  rw [item?, node?_append, Option.isSome_map] at there
  cases found : d.node? parent with
  | none => simp [found] at there
  | some node =>
    cases node with
    | file r c => simp [found] at there
    | directory rights entries => exact ⟨rights, item?_of_node? found⟩

/-- The locations on the way to an item hold items. -/
theorem isSome_item?_above (before : location <+: other) (there : (d.item? other).isSome) :
    (d.item? location).isSome := by
  obtain ⟨inner, rfl⟩ := before
  rw [item?, Option.isSome_map, node?_append] at there
  rw [item?, Option.isSome_map]
  exact Option.isSome_of_isSome_bind there

/-- Nothing is found below what is no directory. -/
theorem item?_below (other : ∀ rights, d.item? location ≠ some (.directory rights)) (name : String)
    (rest : Location) : d.item? (location ++ name :: rest) = none := by
  rw [← Option.not_isSome_iff_eq_none]
  intro present
  have here : (d.item? (location ++ [name])).isSome :=
    isSome_item?_above ⟨rest, List.append_cons _ _ _ ▸ rfl⟩ present
  obtain ⟨rights, stands⟩ := exists_directory here
  exact other rights stands

/-- A directory has an entry with a name exactly when something stands there. -/
theorem isSome_lookup (there : d.node? parent = some (.directory rights entries)) :
    (entries.lookup name).isSome = (d.item? (parent ++ [name])).isSome := by
  rw [item?, Option.isSome_map, node?_concat there]

/-- **Putting a node at a location** changes what stands there and below, and nothing else. -/
theorem item?_put (there : d.item? parent = some (.directory rights)) (name : String) (node : Node)
    (other : Location) :
    (d.put (parent ++ [name]) node).item? other =
      if parent ++ [name] <+: other then
        (node.at? (other.drop (parent.length + 1))).map Node.item
      else d.item? other := by
  obtain ⟨entries, found⟩ := exists_entries_of_item? there
  exact Node.item_at?_putAt found

end Disk

/-! ## Proper disks -/

/-- A name that can be written in a path. -/
structure IsName (name : String) : Prop where
  nonempty : name ≠ ""
  not_here : name ≠ "."
  not_up : name ≠ ".."
  unbroken : '/' ∉ name.toList

namespace Node

variable {name : String} {node : Node} {rights : Rights} {entries : List (String × Node)}

/-- Every name in a node can be written in a path, and every directory has it once. -/
inductive Proper : Node → Prop where
  | file (rights : Rights) (content : ByteArray) : Proper (.file rights content)
  | directory (rights : Rights) {entries : List (String × Node)}
      (named : ∀ entry ∈ entries, IsName entry.1) (distinct : (entries.map Prod.fst).Nodup)
      (inside : ∀ entry ∈ entries, Proper entry.2) : Proper (.directory rights entries)

theorem Proper.single (isName : IsName name) (proper : node.Proper) :
    (Node.directory rights [(name, node)]).Proper :=
  .directory rights (List.forall_mem_singleton.2 isName) (by simp)
    (List.forall_mem_singleton.2 proper)

theorem Proper.at? {location : Location} {inner : Node} (proper : node.Proper)
    (there : node.at? location = some inner) : inner.Proper := by
  induction location generalizing node with
  | nil =>
    rw [at?_nil] at there
    rwa [← Option.some.inj there]
  | cons name rest ih =>
    cases proper with
    | file => simp at there
    | directory rights named distinct inside =>
      obtain ⟨found, lookedUp, within⟩ := Option.bind_eq_some_iff.1 there
      obtain ⟨front, back, rfl, _⟩ := List.lookup_eq_some_iff.1 lookedUp
      exact ih (inside (name, found) (by simp)) within

theorem Proper.putEntry (proper : (Node.directory rights entries).Proper) (isName : IsName name)
    (properNode : node.Proper) : (Node.directory rights (putEntry name node entries)).Proper := by
  cases proper with
  | directory _ named distinct inside =>
    rw [Node.putEntry]
    split
    · refine .directory rights ?_ ?_ ?_
      · intro entry mem
        obtain ⟨held, isHeld, rfl⟩ := List.mem_map.1 mem
        split
        · exact isName
        · exact named held isHeld
      · have same : (fun e : String × Node => if e.1 = name then name else e.1) = Prod.fst := by
          funext e
          split
          · rename_i same
            exact same.symm
          · rfl
        simpa [Function.comp_def, apply_ite Prod.fst, same] using distinct
      · intro entry mem
        obtain ⟨held, isHeld, rfl⟩ := List.mem_map.1 mem
        split
        · exact properNode
        · exact inside held isHeld
    · rename_i absent
      have fresh : ∀ entry ∈ entries, entry.1 ≠ name := by
        intro entry mem same
        refine absent (List.lookup_isSome_iff.2 ⟨entry, mem, ?_⟩)
        simp [same]
      refine .directory rights ?_ ?_ ?_
      · intro entry mem
        rcases List.mem_append.1 mem with held | new
        · exact named entry held
        · rwa [List.mem_singleton.1 new]
      · simp only [List.map_append, List.map_cons, List.map_nil]
        refine List.nodup_append.2 ⟨distinct, by simp, ?_⟩
        intro one held other new
        obtain ⟨entry, mem, rfl⟩ := List.mem_map.1 held
        rw [List.mem_singleton.1 new]
        exact fresh entry mem
      · intro entry mem
        rcases List.mem_append.1 mem with held | new
        · exact inside entry held
        · rwa [List.mem_singleton.1 new]

theorem Proper.putAt (proper : (Node.directory rights entries).Proper) (isName : IsName name)
    (properNode : node.Proper) (parent : Location) :
    (Node.directory rights (putAt node (parent ++ [name]) entries)).Proper := by
  induction parent generalizing rights entries with
  | nil => exact proper.putEntry isName properNode
  | cons outer rest ih =>
    by_cases within : ∃ inside held, entries.lookup outer = some (.directory inside held)
    · obtain ⟨inside, held, found⟩ := within
      rw [putAt_within found]
      have stands : (Node.directory rights entries).at? [outer] =
          some (.directory inside held) := by
        simp [found]
      have properHeld := proper.at? stands
      obtain ⟨front, back, rfl, _⟩ := List.lookup_eq_some_iff.1 found
      have isHere : IsName outer := by
        cases proper with
        | directory _ named distinct _ => exact named (outer, .directory inside held) (by simp)
      exact proper.putEntry isHere (ih properHeld)
    · rw [putAt_blocked fun inside held found => within ⟨inside, held, found⟩]
      exact proper

end Node

namespace Disk

variable {d : Disk} {location : Location} {rights : Rights} {entries : List (String × Node)}

/-- The tree of the disk is proper, from the root on. -/
def Proper (d : Disk) : Prop :=
  d.root.Proper

theorem Proper.node? {node : Node} (proper : d.Proper) (there : d.node? location = some node) :
    node.Proper :=
  proper.at? there

/-- **A directory of a proper disk has an entry for what stands directly in it**, and no other. -/
theorem Proper.mem_iff (proper : d.Proper)
    (there : d.node? location = some (.directory rights entries)) {name : String} {node : Node} :
    (name, node) ∈ entries ↔ d.node? (location ++ [name]) = some node := by
  rw [node?_concat there]
  cases proper.node? there with
  | directory _ named distinct inside =>
    rw [List.lookup_eq_some_iff]
    constructor
    · intro mem
      obtain ⟨front, back, rfl⟩ := List.append_of_mem mem
      refine ⟨front, back, rfl, fun entry before => ?_⟩
      rw [List.map_append, List.nodup_append] at distinct
      have apart := distinct.2.2 entry.1 (List.mem_map_of_mem before) name (by simp)
      simpa using apart.symm
    · rintro ⟨front, back, rfl, _⟩
      simp

theorem Proper.isName (proper : d.Proper)
    (there : d.node? location = some (.directory rights entries)) {entry : String × Node}
    (mem : entry ∈ entries) : IsName entry.1 := by
  cases proper.node? there with
  | directory _ named distinct inside => exact named entry mem

end Disk

end MediaSweep
