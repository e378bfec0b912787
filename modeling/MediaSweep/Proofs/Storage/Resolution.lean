import MediaSweep.Proofs.Steps
import MediaSweep.Proofs.Storage.Items
import MediaSweep.Text.Lines

/-!
# Where paths lead

A path denotes a location whether or not anything is there: the pieces of its text are followed by
name (`Disk.locate`).  Resolving it on a disk takes the same way past the items, and either stops at
a fault or ends at that location.  `Disk.reach` takes the way with locations, `walk` with the nodes
passed; they agree (`Trail.On.walk`), and so resolving a path finds the node at the location that it
denotes (`node?_of_resolve`).

Resolution only asks for directories with their rights and for what is present.  A disk on which
these are kept (`Disk.Within`) therefore resolves the same paths to the same locations
(`Disk.Within.find`).
-/

namespace MediaSweep

set_option autoImplicit false

/-! ## Following pieces by name -/

/-- Where a piece of a path leads. -/
def leadFrom (location : Location) (piece : String) : Location :=
  if piece = "" ∨ piece = "." then location
  else if piece = ".." then location.dropLast
  else location ++ [piece]

/-- Where pieces of a path lead, one after the other. -/
def leadsTo (start : Location) (pieces : List String) : Location :=
  pieces.foldl leadFrom start

@[simp]
theorem leadsTo_nil (start : Location) : leadsTo start [] = start := rfl

@[simp]
theorem leadsTo_cons (start : Location) (piece : String) (rest : List String) :
    leadsTo start (piece :: rest) = leadsTo (leadFrom start piece) rest := rfl

theorem leadsTo_append (start : Location) (front back : List String) :
    leadsTo start (front ++ back) = leadsTo (leadsTo start front) back :=
  List.foldl_append

theorem leadFrom_name {name : String} (isName : IsName name) (location : Location) :
    leadFrom location name = location ++ [name] := by
  rw [leadFrom, if_neg (by simp [isName.nonempty, isName.not_here]), if_neg isName.not_up]

theorem leadsTo_eq_self {pieces : List String} (idle : ∀ piece ∈ pieces, piece = "" ∨ piece = ".")
    (start : Location) : leadsTo start pieces = start := by
  induction pieces with
  | nil => rfl
  | cons piece rest ih =>
    obtain ⟨here, behind⟩ := List.forall_mem_cons.1 idle
    rw [leadsTo_cons, leadFrom, if_pos here, ih behind]

namespace Path

theorem unbroken_pieces (text : String) : ∀ piece ∈ pieces text, '/' ∉ piece.toList := by
  intro piece mem
  obtain ⟨chars, found, rfl⟩ := List.mem_map.1 mem
  simpa using Text.notMem_of_mem_splitOn chars found

/-- A text that can be the text of a path. -/
structure IsUsable (p : Path) : Prop where
  no_nul : p.text.contains '\x00' = false
  nonempty : p.text ≠ ""
  short : p.text.utf8ByteSize < Disk.pathLimit

end Path

namespace Disk

variable {d d' : Disk} {location : Location} {path : Path} {piece : String} {pieces : List String}

/-- Where a path starts. -/
def startOf (d : Disk) (path : Path) : Location :=
  if path.isAbsolute then [] else d.current

/-- The location that a path denotes. -/
def locate (d : Disk) (path : Path) : Location :=
  leadsTo (d.startOf path) (Path.pieces path.text)

/-! ## Following pieces on a disk -/

/-- Go to what a piece names, from a directory that can be searched. -/
def reachStep (d : Disk) (location : Location) (piece : String) : Attempt Location :=
  if piece = "." then .ok location
  else if piece = ".." then .ok location.dropLast
  else if nameLimit < piece.utf8ByteSize then .error .nameTooLong
  else if (d.item? (location ++ [piece])).isSome then .ok (location ++ [piece])
  else .error .missing

/-- Follow pieces from a location, past the items on the way. -/
def reach (d : Disk) (location : Location) : List String → Attempt Location
  | [] => .ok location
  | piece :: rest =>
    match d.item? location with
    | some (.directory rights) =>
      if piece = "" then d.reach location rest
      else if rights.search then (d.reachStep location piece).bind (d.reach · rest)
      else .error .permission
    | _ => .error .notDirectory

theorem reach_append (d : Disk) (location : Location) (front back : List String) :
    d.reach location (front ++ back) = (d.reach location front).bind (d.reach · back) := by
  induction front generalizing location with
  | nil => rfl
  | cons piece rest ih =>
    simp only [List.cons_append, reach]
    split
    · split
      · exact ih location
      · split
        · cases d.reachStep location piece with
          | error fault => rfl
          | ok next => exact ih next
        · rfl
    · rfl

theorem leadFrom_of_reachStep {next : Location} (stated : piece ≠ "")
    (step : d.reachStep location piece = .ok next) : next = leadFrom location piece := by
  rw [reachStep] at step
  rw [leadFrom]
  split at step
  · rename_i here
    rw [if_pos (.inr here)]
    exact (Except.ok.inj step).symm
  · rename_i away
    rw [if_neg (not_or.2 ⟨stated, away⟩)]
    split at step
    · rename_i up
      rw [if_pos up]
      exact (Except.ok.inj step).symm
    · rename_i named
      rw [if_neg named]
      split at step
      · cases step
      · split at step
        · exact (Except.ok.inj step).symm
        · cases step

/-- **What is reached is where the pieces lead by name.** -/
theorem leadsTo_of_reach {stop : Location} (reached : d.reach location pieces = .ok stop) :
    stop = leadsTo location pieces := by
  induction pieces generalizing location with
  | nil => exact (Except.ok.inj reached).symm
  | cons piece rest ih =>
    rw [reach] at reached
    split at reached
    · split at reached
      · rename_i blank
        rw [ih reached, leadsTo_cons, leadFrom, if_pos (.inl blank)]
      · rename_i stated
        split at reached
        · cases step : d.reachStep location piece with
          | error fault =>
            rw [step] at reached
            cases reached
          | ok next =>
            rw [step] at reached
            rw [ih reached, leadsTo_cons, leadFrom_of_reachStep stated step]
        · cases reached
    · cases reached

theorem isSome_of_reachStep {next : Location} (there : (d.item? location).isSome)
    (step : d.reachStep location piece = .ok next) : (d.item? next).isSome := by
  rw [reachStep] at step
  split at step
  · rwa [← Except.ok.inj step]
  · split at step
    · rw [← Except.ok.inj step]
      exact isSome_item?_above location.dropLast_prefix there
    · split at step
      · cases step
      · split at step
        · rename_i found
          rwa [← Except.ok.inj step]
        · cases step

/-- What is reached is there. -/
theorem isSome_of_reach {stop : Location} (there : (d.item? location).isSome)
    (reached : d.reach location pieces = .ok stop) : (d.item? stop).isSome := by
  induction pieces generalizing location with
  | nil => rwa [← Except.ok.inj reached]
  | cons piece rest ih =>
    rw [reach] at reached
    split at reached
    · split at reached
      · exact ih there reached
      · split at reached
        · obtain ⟨next, step, reached⟩ := exists_of_bind_eq_ok reached
          exact ih (isSome_of_reachStep there step) reached
        · cases reached
    · cases reached

end Disk

/-! ## Trails -/

namespace Trail

variable {d : Disk} {trail : Trail}

/-- A trail on a disk: every node is found under its name in the one before. -/
def On (d : Disk) : Trail → Prop
  | [] => True
  | (name, node) :: before =>
    On d before ∧
      ∃ rights entries, d.last before = .directory rights entries ∧ entries.lookup name = some node

theorem location_cons (name : String) (node : Node) (before : Trail) :
    location ((name, node) :: before) = location before ++ [name] := by
  simp [location]

theorem location_tail (trail : Trail) : location trail.tail = (location trail).dropLast := by
  cases trail with
  | nil => rfl
  | cons passed before => rw [List.tail_cons, location_cons, List.dropLast_concat]

theorem On.tail (on : On d trail) : On d trail.tail := by
  cases trail with
  | nil => exact trivial
  | cons passed before => exact on.1

/-- The last node of a trail stands at its location. -/
theorem On.node? (on : On d trail) : d.node? (location trail) = some (d.last trail) := by
  induction trail with
  | nil => exact Node.at?_nil d.root
  | cons passed before ih =>
    obtain ⟨name, node⟩ := passed
    obtain ⟨onBefore, rights, entries, isDirectory, found⟩ := on
    have there := ih onBefore
    rw [isDirectory] at there
    rw [location_cons, Disk.node?_concat there, found]
    rfl

theorem On.item? (on : On d trail) : d.item? (location trail) = some (d.last trail).item :=
  Disk.item?_of_node? on.node?

/-- Going on to a location inside succeeds when something is there. -/
theorem On.extend (on : On d trail) (inner : Location) :
    (∀ longer, Trail.extend trail inner (d.last trail) = some longer →
        On d longer ∧ location longer = location trail ++ inner) ∧
      (Trail.extend trail inner (d.last trail)).isSome = ((d.last trail).at? inner).isSome := by
  induction inner generalizing trail with
  | nil =>
    refine ⟨fun longer same => ?_, by simp [Trail.extend]⟩
    obtain rfl : trail = longer := by simpa [Trail.extend] using same
    exact ⟨on, (List.append_nil _).symm⟩
  | cons name rest ih =>
    cases here : d.last trail with
    | file rights content => exact ⟨by simp [Trail.extend], rfl⟩
    | directory rights entries =>
      rw [Trail.extend, Node.at?_cons_directory]
      cases found : entries.lookup name with
      | none => exact ⟨by simp, rfl⟩
      | some node =>
        have onNext : On d ((name, node) :: trail) := ⟨on, rights, entries, here, found⟩
        obtain ⟨leads, present⟩ := ih onNext
        refine ⟨fun longer same => ?_, present⟩
        obtain ⟨onLonger, place⟩ := leads longer same
        rw [location_cons, List.append_assoc] at place
        exact ⟨onLonger, place⟩

/-- From the root, a trail leads to every location where something is. -/
theorem extend_root (d : Disk) (location : Location) :
    (∀ trail, Trail.extend [] location d.root = some trail →
        On d trail ∧ Trail.location trail = location) ∧
      (Trail.extend [] location d.root).isSome = (d.item? location).isSome := by
  have on : On d [] := trivial
  obtain ⟨leads, present⟩ := on.extend location
  refine ⟨leads, ?_⟩
  rw [Disk.item?, Option.isSome_map]
  exact present

/-- A step along a trail is a step by locations. -/
theorem On.step {rights : Rights} {entries : List (String × Node)} (on : On d trail)
    (here : d.last trail = .directory rights entries) (piece : String) :
    (Disk.step trail entries piece).map location = d.reachStep (location trail) piece ∧
      ∀ next, Disk.step trail entries piece = .ok next → On d next := by
  have there := on.node?
  rw [here] at there
  rw [Disk.step, Disk.reachStep]
  split
  · exact ⟨rfl, fun next same => Except.ok.inj same ▸ on⟩
  · split
    · exact ⟨congrArg Except.ok (location_tail trail),
        fun next same => Except.ok.inj same ▸ on.tail⟩
    · split
      · exact ⟨rfl, fun next same => by cases same⟩
      · rw [← Disk.isSome_lookup there]
        cases found : entries.lookup piece with
        | none => exact ⟨rfl, fun next same => by cases same⟩
        | some node =>
          refine ⟨congrArg Except.ok (location_cons piece node trail), fun next same => ?_⟩
          exact Except.ok.inj same ▸ ⟨on, rights, entries, here, found⟩

/-- **The way along the nodes is the way by locations.** -/
theorem On.walk (on : On d trail) (pieces : List String) :
    (d.walk trail pieces).map location = d.reach (location trail) pieces ∧
      ∀ stop, d.walk trail pieces = .ok stop → On d stop := by
  induction pieces generalizing trail with
  | nil => exact ⟨rfl, fun stop same => Except.ok.inj same ▸ on⟩
  | cons piece rest ih =>
    rw [Disk.walk, Disk.reach, on.item?]
    cases here : d.last trail with
    | file rights content => exact ⟨rfl, fun stop same => by cases same⟩
    | directory rights entries =>
      simp only [Node.item]
      split
      · exact ih on
      · split
        · obtain ⟨same, onNext⟩ := on.step here piece
          rw [← same]
          cases step : Disk.step trail entries piece with
          | error fault => exact ⟨rfl, fun stop same => by cases same⟩
          | ok next => exact ih (onNext next step)
        · exact ⟨rfl, fun stop same => by cases same⟩

end Trail

/-! ## Resolving paths -/

namespace Disk

variable {d d' : Disk} {path : Path} {node : Node}

/-- Find the location of a path, past the items on the way. -/
def find (d : Disk) (path : Path) : Attempt Location :=
  if path.text.contains '\x00' then .error .nulInPath
  else if path.text = "" then .error .missing
  else if pathLimit ≤ path.text.utf8ByteSize then .error .nameTooLong
  else if (d.item? (d.startOf path)).isSome then d.reach (d.startOf path) (Path.pieces path.text)
  else .error .missing

theorem find_eq_ok_iff {location : Location} :
    d.find path = .ok location ↔
      path.IsUsable ∧ (d.item? (d.startOf path)).isSome ∧
        d.reach (d.startOf path) (Path.pieces path.text) = .ok location := by
  rw [find]
  constructor
  · intro found
    split at found
    · cases found
    · split at found
      · cases found
      · split at found
        · cases found
        · split at found
          · rename_i no_nul nonempty long there
            exact ⟨⟨by simpa using no_nul, nonempty, Nat.lt_of_not_le long⟩, there, found⟩
          · cases found
  · rintro ⟨usable, there, reached⟩
    rw [if_neg (by simp [usable.no_nul]), if_neg usable.nonempty,
      if_neg (Nat.not_le_of_lt usable.short), if_pos there, reached]

/-- **A path that is found is found where it leads.** -/
theorem locate_of_find {location : Location} (found : d.find path = .ok location) :
    location = d.locate path :=
  leadsTo_of_reach (find_eq_ok_iff.1 found).2.2

/-- The checks that a path has to pass before it is followed. -/
theorem begin_eq (d : Disk) (path : Path) :
    d.begin path =
      if path.text.contains '\x00' then .error .nulInPath
      else if path.text = "" then .error .missing
      else if pathLimit ≤ path.text.utf8ByteSize then .error .nameTooLong
      else
        match Trail.extend [] (d.startOf path) d.root with
        | some trail => .ok (trail, Path.pieces path.text)
        | none => .error .missing :=
  rfl

/-- A path that may be followed starts at the trail to its start. -/
theorem on_begin {start : Trail} {pieces : List String}
    (begun : d.begin path = .ok (start, pieces)) :
    Trail.On d start ∧ Trail.location start = d.startOf path ∧
      pieces = Path.pieces path.text ∧ path.IsUsable := by
  rw [begin_eq] at begun
  split at begun
  · cases begun
  · rename_i no_nul
    split at begun
    · cases begun
    · rename_i nonempty
      split at begun
      · cases begun
      · rename_i long
        split at begun
        · rename_i trail extended
          obtain ⟨rfl, rfl⟩ := Prod.mk.inj (Except.ok.inj begun)
          obtain ⟨on, place⟩ := (Trail.extend_root d _).1 _ extended
          exact ⟨on, place, rfl, by simpa using no_nul, nonempty, Nat.lt_of_not_le long⟩
        · cases begun

/-- A path without a fault in its text whose start is there may be followed. -/
theorem exists_begin (usable : path.IsUsable) (there : (d.item? (d.startOf path)).isSome) :
    ∃ start, d.begin path = .ok (start, Path.pieces path.text) := by
  rw [← (Trail.extend_root d (d.startOf path)).2] at there
  obtain ⟨start, extended⟩ := Option.isSome_iff_exists.1 there
  refine ⟨start, ?_⟩
  rw [begin_eq, if_neg (by simp [usable.no_nul]), if_neg usable.nonempty,
    if_neg (Nat.not_le_of_lt usable.short), extended]

/-- **A path is resolved to the node at the location where it is found.** -/
theorem resolve_eq_ok_iff :
    d.resolve path = .ok node ↔
      ∃ location, d.find path = .ok location ∧ d.node? location = some node := by
  constructor
  · intro resolved
    obtain ⟨trail, followed, same⟩ := exists_of_bind_eq_ok resolved
    obtain ⟨⟨start, pieces⟩, begun, walked⟩ := exists_of_bind_eq_ok followed
    obtain ⟨on, place, rfl, usable⟩ := on_begin begun
    have walked : d.walk start (Path.pieces path.text) = .ok trail := walked
    obtain ⟨way, onStop⟩ := on.walk (Path.pieces path.text)
    rw [walked, place] at way
    have there := on.item?
    rw [place] at there
    refine ⟨Trail.location trail, find_eq_ok_iff.2 ⟨usable, ?_, way.symm⟩, ?_⟩
    · rw [there, Option.isSome_some]
    · rw [(onStop trail walked).node?, Except.ok.inj same]
  · rintro ⟨location, found, there⟩
    obtain ⟨usable, present, reached⟩ := find_eq_ok_iff.1 found
    obtain ⟨start, begun⟩ := exists_begin usable present
    obtain ⟨on, place, _⟩ := on_begin begun
    obtain ⟨way, onStop⟩ := on.walk (Path.pieces path.text)
    rw [place, reached] at way
    cases walked : d.walk start (Path.pieces path.text) with
    | error fault =>
      rw [walked] at way
      cases way
    | ok stop =>
      rw [walked] at way
      obtain rfl : Trail.location stop = location := Except.ok.inj way
      have same : d.last stop = node := by
        rw [(onStop stop walked).node?] at there
        exact Option.some.inj there
      have followed : d.follow path = .ok stop := by
        rw [follow, begun]
        exact walked
      rw [resolve, followed, ← same]
      rfl

/-- What a path is resolved to stands where the path leads. -/
theorem node?_of_resolve (resolved : d.resolve path = .ok node) :
    d.node? (d.locate path) = some node := by
  obtain ⟨location, found, there⟩ := resolve_eq_ok_iff.1 resolved
  rwa [← locate_of_find found]

/-- A path that is found leads to a node. -/
theorem exists_resolve {location : Location} (found : d.find path = .ok location) :
    ∃ node, d.resolve path = .ok node ∧ d.node? location = some node := by
  obtain ⟨_, present, reached⟩ := find_eq_ok_iff.1 found
  have there := isSome_of_reach present reached
  rw [item?, Option.isSome_map] at there
  obtain ⟨node, stands⟩ := Option.isSome_iff_exists.1 there
  exact ⟨node, resolve_eq_ok_iff.2 ⟨location, found, stands⟩, stands⟩

/-- A path leads to a directory when it is found and a directory is there. -/
theorem kind?_eq_directory_iff :
    d.kind? path = some .directory ↔
      ∃ rights, d.find path = .ok (d.locate path) ∧
        d.item? (d.locate path) = some (.directory rights) := by
  rw [kind?]
  constructor
  · intro isDirectory
    cases resolved : d.resolve path with
    | error fault =>
      rw [resolved] at isDirectory
      cases isDirectory
    | ok node =>
      rw [resolved] at isDirectory
      obtain ⟨location, found, there⟩ := resolve_eq_ok_iff.1 resolved
      rw [← locate_of_find found]
      cases node with
      | file rights content => cases isDirectory
      | directory rights entries => exact ⟨rights, found, item?_of_node? there⟩
  · rintro ⟨rights, found, there⟩
    obtain ⟨node, resolved, stands⟩ := exists_resolve found
    obtain ⟨entries, isDirectory⟩ := exists_entries_of_item? there
    rw [stands] at isDirectory
    rw [resolved, Option.some.inj isDirectory]
    rfl

/-! ## Disks with the same directories -/

/-- All directories of a disk are on another one with their rights, and whatever is present on it is
present there. -/
structure Within (d d' : Disk) : Prop where
  current_eq : d'.current = d.current
  directory : ∀ location rights, d.item? location = some (.directory rights) →
    d'.item? location = some (.directory rights)
  present : ∀ location, (d.item? location).isSome → (d'.item? location).isSome

theorem Within.refl (d : Disk) : d.Within d :=
  ⟨rfl, fun _ _ there => there, fun _ there => there⟩

theorem Within.trans {d'' : Disk} (first : d.Within d') (second : d'.Within d'') :
    d.Within d'' where
  current_eq := second.current_eq.trans first.current_eq
  directory := fun location rights there =>
    second.directory location rights (first.directory location rights there)
  present := fun location there => second.present location (first.present location there)

theorem startOf_eq (same : d'.current = d.current) (path : Path) :
    d'.startOf path = d.startOf path := by
  rw [startOf, startOf, same]

/-- Where a path leads hangs on the current directory only. -/
theorem locate_eq (same : d'.current = d.current) (path : Path) :
    d'.locate path = d.locate path := by
  rw [locate, locate, startOf_eq same]

theorem Within.reachStep {location next : Location} {piece : String} (within : d.Within d')
    (step : d.reachStep location piece = .ok next) : d'.reachStep location piece = .ok next := by
  rw [Disk.reachStep] at step ⊢
  by_cases here : piece = "."
  · rwa [if_pos here] at step ⊢
  rw [if_neg here] at step ⊢
  by_cases up : piece = ".."
  · rwa [if_pos up] at step ⊢
  rw [if_neg up] at step ⊢
  by_cases long : nameLimit < piece.utf8ByteSize
  · rw [if_pos long] at step
    cases step
  rw [if_neg long] at step ⊢
  split at step
  · rename_i found
    rwa [if_pos (within.present _ found)]
  · cases step

theorem Within.reach {location stop : Location} {pieces : List String} (within : d.Within d')
    (reached : d.reach location pieces = .ok stop) : d'.reach location pieces = .ok stop := by
  induction pieces generalizing location with
  | nil => exact reached
  | cons piece rest ih =>
    rw [Disk.reach] at reached ⊢
    split at reached
    · rename_i rights there
      rw [within.directory location rights there]
      by_cases blank : piece = ""
      · simp only [if_pos blank] at reached ⊢
        exact ih reached
      simp only [if_neg blank] at reached ⊢
      split at reached
      · rename_i searchable
        obtain ⟨next, step, reached⟩ := exists_of_bind_eq_ok reached
        rw [if_pos searchable, within.reachStep step]
        exact ih reached
      · cases reached
    · cases reached

/-- **A path that is found stays where it is** as long as the directories stay. -/
theorem Within.find {location : Location} (within : d.Within d')
    (found : d.find path = .ok location) : d'.find path = .ok location := by
  obtain ⟨usable, present, reached⟩ := find_eq_ok_iff.1 found
  rw [find_eq_ok_iff, startOf_eq within.current_eq]
  exact ⟨usable, within.present _ present, within.reach reached⟩

theorem Within.kind?_directory (within : d.Within d')
    (isDirectory : d.kind? path = some .directory) : d'.kind? path = some .directory := by
  obtain ⟨rights, found, there⟩ := kind?_eq_directory_iff.1 isDirectory
  rw [kind?_eq_directory_iff, locate_eq within.current_eq]
  exact ⟨rights, within.find found, within.directory _ rights there⟩

end Disk

end MediaSweep
