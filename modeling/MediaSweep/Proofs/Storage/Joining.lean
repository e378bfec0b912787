import MediaSweep.Proofs.Storage.Operations
import MediaSweep.Storage.Snapshot

/-!
# Joined paths and neighbours

Joining, taking the parent and putting another name at the end change the text of a path.  Here it
is said what they do to the location that the path denotes.  A path joined to another one leads on
from where that one leads (`locate_join`).  Without its last part a path leads to where that part is
followed from (`Path.endsIn_of_parent?`).  Giving a path another name leads to a neighbour, if the
path has a name at its end (`Path.exists_beside`); else the new name is joined to the path, and
leads inside.

Paths lead into every directory on the way to one that they lead into (`Disk.Enters.of_endsIn`).
-/

namespace MediaSweep

set_option autoImplicit false

theorem isIdlePiece_iff {piece : String} : isIdlePiece piece = true ↔ piece = "" ∨ piece = "." := by
  rw [isIdlePiece, PathPart.ofPiece?]
  by_cases idle : piece = "" ∨ piece = "."
  · simp [idle]
  · rw [if_neg idle]
    split <;> simp [idle]

/-- Leaving out idle pieces at the end leaves the pieces before them. -/
theorem dropIdleEnd_append (pieces : List String) :
    ∃ idles, pieces = dropIdleEnd pieces ++ idles ∧ ∀ piece ∈ idles, isIdlePiece piece = true := by
  refine ⟨(pieces.reverse.takeWhile isIdlePiece).reverse, ?_, fun piece mem => ?_⟩
  · rw [dropIdleEnd, ← List.reverse_append, List.takeWhile_append_dropWhile, List.reverse_reverse]
  · exact List.mem_takeWhile_imp (List.mem_reverse.1 mem)

namespace Path

/-! ## Pieces of texts -/

theorem pieces_ne_nil (text : String) : pieces text ≠ [] := by
  simp [pieces, List.splitOn, List.splitOnP_ne_nil]

/-- A slash between two texts divides their pieces. -/
theorem pieces_append (front back : String) :
    pieces (front ++ "/" ++ back) = pieces front ++ pieces back := by
  have chars : (front ++ "/" ++ back).toList = front.toList ++ '/' :: back.toList := by simp
  rw [pieces, chars, List.splitOn_append_cons_self, List.map_append]
  rfl

theorem pieces_eq_singleton {text : String} (unbroken : '/' ∉ text.toList) :
    pieces text = [text] := by
  rw [pieces, List.splitOn_eq_singleton unbroken]
  simp

/-- Pieces with slashes between them are the pieces of the text. -/
theorem pieces_intercalate {body : List String} (nonempty : body ≠ [])
    (unbroken : ∀ piece ∈ body, '/' ∉ piece.toList) :
    pieces (String.intercalate "/" body) = body := by
  have split : (List.intercalate ['/'] (body.map String.toList)).splitOn '/' =
      body.map String.toList := by
    refine List.splitOn_intercalate _ (fun chars mem => ?_) (by simpa using nonempty)
    obtain ⟨piece, found, rfl⟩ := List.mem_map.1 mem
    exact unbroken piece found
  rw [pieces, String.toList_intercalate]
  show ((List.intercalate ['/'] (body.map String.toList)).splitOn '/').map String.ofList = body
  rw [split]
  simp [Function.comp_def]

theorem pieces_eq_blank_iff {text : String} : pieces text = [""] ↔ text = "" := by
  constructor
  · intro blank
    have whole : List.intercalate ['/'] (text.toList.splitOn '/') = text.toList :=
      List.intercalate_splitOn '/'
    have chars : text.toList.splitOn '/' = [[]] := by
      have := congrArg (List.map String.toList) blank
      simpa [pieces, Function.comp_def] using this
    rw [chars] at whole
    exact String.toList_injective whole.symm
  · rintro rfl
    exact pieces_eq_singleton (by simp)

end Path

/-- The piece that stands for the beginning of a path. -/
def PathStart.opening : PathStart → List String
  | root => [""]
  | here => ["."]
  | plain => []

namespace Path

variable {p : Path} {name : String}

/-- The pieces of a path, perhaps without a blank one at the end. -/
def IsStem (front : List String) (p : Path) : Prop :=
  pieces p.text = front ∨ pieces p.text = front ++ [""]

theorem IsStem.leadsTo_eq {front : List String} (stem : IsStem front p) (start : Location) :
    leadsTo start (pieces p.text) = leadsTo start front := by
  rcases stem with whole | whole
  · rw [whole]
  · rw [whole, leadsTo_append, leadsTo_eq_self (by simp)]

/-! ## Beginnings -/

/-- The ways in which a path begins. -/
theorem divide_cases (p : Path) :
    (∃ body, body ≠ [] ∧ pieces p.text = "" :: body ∧ p.divide = (.root, body)) ∨
      (∃ body, pieces p.text = "." :: body ∧ p.divide = (.here, body)) ∨
      ((pieces p.text).head? ≠ some "" ∧ p.divide = (.plain, pieces p.text)) ∨
      (pieces p.text = [""] ∧ p.divide = (.plain, [])) := by
  rw [divide]
  split
  · rename_i rest whole
    by_cases single : rest = []
    · subst single
      exact .inr (.inr (.inr ⟨whole, rfl⟩))
    · rw [if_neg single]
      exact .inl ⟨rest, single, whole, rfl⟩
  · rename_i rest whole
    exact .inr (.inl ⟨rest, whole, rfl⟩)
  · rename_i no_slash no_point
    refine .inr (.inr (.inl ⟨fun blank => ?_, rfl⟩))
    obtain ⟨rest, whole⟩ := List.head?_eq_some_iff.1 blank
    exact no_slash rest whole

/-- A path is absolute when its first piece is blank, unless it is empty. -/
theorem isAbsolute_iff :
    p.isAbsolute = true ↔ (pieces p.text).head? = some "" ∧ p.text ≠ "" := by
  rw [isAbsolute, decide_eq_true_iff]
  rcases divide_cases p with ⟨body, nonempty, whole, cut⟩ | ⟨body, whole, cut⟩ | ⟨start, cut⟩ |
    ⟨whole, cut⟩
  · refine iff_of_true (by rw [cut]) ⟨by rw [whole]; rfl, fun blank => nonempty ?_⟩
    rw [pieces_eq_blank_iff.2 blank] at whole
    exact (List.cons.inj whole).2.symm
  · exact iff_of_false (by simp [cut]) fun absolute => by simp [whole] at absolute
  · exact iff_of_false (by simp [cut]) fun absolute => start absolute.1
  · exact iff_of_false (by simp [cut]) fun absolute => absolute.2 (pieces_eq_blank_iff.1 whole)

/-- The pieces of a path are its opening and its body, unless it is empty. -/
theorem pieces_divide (p : Path) :
    pieces p.text = p.divide.1.opening ++ p.divide.2 ∨ p.divide.2 = [] := by
  rcases divide_cases p with ⟨body, _, whole, cut⟩ | ⟨body, whole, cut⟩ | ⟨_, cut⟩ | ⟨_, cut⟩
  · left
    rw [whole, cut]
    rfl
  · left
    rw [whole, cut]
    rfl
  · left
    rw [cut]
    rfl
  · right
    rw [cut]

/-- A path that begins with a name begins with no blank piece. -/
theorem head?_divide (p : Path) (plain : p.divide.1 = .plain) : p.divide.2.head? ≠ some "" := by
  rcases divide_cases p with ⟨body, _, _, cut⟩ | ⟨body, _, cut⟩ | ⟨start, cut⟩ | ⟨_, cut⟩
  · rw [cut] at plain
    cases plain
  · rw [cut] at plain
    cases plain
  · rwa [cut]
  · rw [cut]
    simp

/-- The pieces of an assembled path are its opening and its body, and a blank one when there would
be nothing to put behind the slash or nothing at all. -/
theorem pieces_assemble (start : PathStart) {body : List String}
    (unbroken : ∀ piece ∈ body, '/' ∉ piece.toList) :
    pieces (assemble start body).text = start.opening ++ body ∨
      pieces (assemble start body).text = start.opening ++ body ++ [""] := by
  cases start with
  | root =>
    have cut : pieces ("/" ++ String.intercalate "/" body) =
        "" :: pieces (String.intercalate "/" body) := by
      have := pieces_append "" (String.intercalate "/" body)
      rwa [String.empty_append, pieces_eq_blank_iff.2 rfl] at this
    by_cases none_left : body = []
    · subst none_left
      exact .inr (cut.trans (congrArg _ (pieces_eq_blank_iff.2 rfl)))
    · exact .inl (cut.trans (congrArg _ (pieces_intercalate none_left unbroken)))
  | here =>
    refine .inl (pieces_intercalate (List.cons_ne_nil _ _) ?_)
    exact List.forall_mem_cons.2 ⟨by decide, unbroken⟩
  | plain =>
    by_cases none_left : body = []
    · subst none_left
      exact .inr (pieces_eq_blank_iff.2 rfl)
    · exact .inl (pieces_intercalate none_left unbroken)

theorem isAbsolute_assemble {start : PathStart} {body : List String}
    (unbroken : ∀ piece ∈ body, '/' ∉ piece.toList)
    (plain : start = .plain → body.head? ≠ some "") :
    (assemble start body).isAbsolute = true ↔ start = .root := by
  rw [isAbsolute_iff]
  cases start with
  | root =>
    refine iff_of_true ⟨?_, ?_⟩ rfl
    · rcases pieces_assemble .root unbroken with whole | whole <;> rw [whole] <;> rfl
    · intro blank
      have := congrArg String.toList blank
      simp [assemble] at this
  | here =>
    refine iff_of_false (fun absolute => ?_) (by simp)
    rcases pieces_assemble .here unbroken with whole | whole <;>
      simp [whole, PathStart.opening] at absolute
  | plain =>
    refine iff_of_false (fun absolute => ?_) (by simp)
    rcases pieces_assemble .plain unbroken with whole | whole
    · rw [whole] at absolute
      exact plain rfl absolute.1
    · cases body with
      | nil => exact absolute.2 (pieces_eq_blank_iff.1 whole)
      | cons first rest =>
        rw [whole] at absolute
        exact plain rfl absolute.1

/-! ## Joining -/

/-- What is joined to a path follows its pieces, where a blank one at the end gives way. -/
theorem pieces_join {inner : String} (relative : (Path.mk inner).isAbsolute = false) (p : Path) :
    ∃ front, pieces (p.join inner).text = front ++ pieces inner ∧ IsStem front p := by
  rw [join, if_neg (by simp [relative])]
  by_cases empty : p.text = ""
  · rw [if_pos (.inl empty), empty, String.empty_append]
    exact ⟨[], rfl, .inr (pieces_eq_blank_iff.2 empty)⟩
  by_cases slashed : p.text.toList.getLast? = some '/'
  · rw [if_pos (.inr slashed)]
    obtain ⟨chars, whole⟩ := List.getLast?_eq_some_iff.1 slashed
    have cut : p.text = String.ofList chars ++ "/" := by
      apply String.toList_injective
      simpa using whole
    refine ⟨pieces (String.ofList chars), ?_, .inr ?_⟩
    · rw [cut, pieces_append]
    · have := pieces_append (String.ofList chars) ""
      rwa [String.append_empty, ← cut, pieces_eq_blank_iff.2 rfl] at this
  · rw [if_neg (not_or.2 ⟨empty, slashed⟩)]
    exact ⟨pieces p.text, pieces_append _ _, .inl rfl⟩

theorem isAbsolute_join {inner : String} (relative : (Path.mk inner).isAbsolute = false)
    (p : Path) : (p.join inner).isAbsolute = p.isAbsolute := by
  by_cases empty : p.text = ""
  · have same : p.join inner = ⟨inner⟩ := by
      rw [join, if_neg (by simp [relative]), if_pos (.inl empty), empty, String.empty_append]
    have unset : p.isAbsolute = false := by
      rw [← Bool.not_eq_true, isAbsolute_iff]
      exact fun absolute => absolute.2 empty
    rw [same, relative, unset]
  obtain ⟨front, joined, before⟩ := pieces_join relative p
  have some_front : front ≠ [] := by
    rintro rfl
    rcases before with whole | whole
    · exact pieces_ne_nil _ whole
    · exact empty (pieces_eq_blank_iff.1 whole)
  have longer : (p.join inner).text ≠ "" := by
    intro blank
    rw [pieces_eq_blank_iff.2 blank] at joined
    have sizes := congrArg List.length joined
    have := List.length_pos_iff.2 some_front
    have := List.length_pos_iff.2 (pieces_ne_nil inner)
    simp only [List.length_append, List.length_singleton] at sizes
    omega
  have heads : (pieces (p.join inner).text).head? = (pieces p.text).head? := by
    obtain ⟨first, others, rfl⟩ := List.exists_cons_of_ne_nil some_front
    rw [joined]
    rcases before with whole | whole <;> rw [whole] <;> rfl
  rw [Bool.eq_iff_iff, isAbsolute_iff, isAbsolute_iff, heads]
  simp [longer, empty]

/-- A name alone is no absolute path. -/
theorem isAbsolute_name (isName : IsName name) : (Path.mk name).isAbsolute = false := by
  rw [← Bool.not_eq_true, isAbsolute_iff, pieces_eq_singleton isName.unbroken]
  simp [isName.nonempty]

theorem text_join_ne (isName : IsName name) (p : Path) : (p.join name).text ≠ "" := by
  obtain ⟨front, joined, _⟩ := pieces_join (isAbsolute_name isName) p
  intro blank
  rw [pieces_eq_blank_iff.2 blank, pieces_eq_singleton isName.unbroken] at joined
  have := congrArg List.getLast? joined
  simp [isName.nonempty.symm] at this

/-- A name that is joined to a path is as much longer as it has bytes, and a slash perhaps. -/
theorem le_utf8ByteSize_join (isName : IsName name) (p : Path) :
    p.text.utf8ByteSize + name.utf8ByteSize ≤ (p.join name).text.utf8ByteSize := by
  rw [join, if_neg (by simp [isAbsolute_name isName])]
  split <;> simp only [String.utf8ByteSize_append] <;> omega

/-! ## Neighbours -/

/-- The directory that is left when the last part of a path is cut off, and how the path leads on
from it: past pieces that say nothing, to that part. -/
structure EndsIn (above p : Path) (last : String) : Prop where
  isAbsolute_eq : above.isAbsolute = p.isAbsolute
  parent?_eq : p.parent? = some above
  last_eq : (dropIdleEnd p.divide.2).getLast? = some last
  split : ∃ front between idles, pieces p.text = front ++ (between ++ last :: idles) ∧
    IsStem front above ∧ ∀ piece ∈ between ++ idles, isIdlePiece piece = true

/-- The directory of a path with a name at its end, and how the path leads on from it: past pieces
that say nothing, to the name. -/
structure Beside (above p : Path) (name : String) : Prop where
  isName : IsName name
  isAbsolute_eq : above.isAbsolute = p.isAbsolute
  withFileName_eq : ∀ other, p.withFileName other = above.join other
  split : ∃ front rest, pieces p.text = front ++ rest ∧ rest ≠ [] ∧ IsStem front above ∧
    ∀ start, leadsTo start rest = start ++ [name]

/-- The last piece that is kept says something. -/
theorem isIdlePiece_of_getLast? {pieces : List String} {name : String}
    (isLast : (dropIdleEnd pieces).getLast? = some name) : isIdlePiece name = false := by
  rw [dropIdleEnd, List.getLast?_reverse] at isLast
  have := List.head?_dropWhile_not isIdlePiece pieces.reverse
  rw [isLast] at this
  simpa using this

/-- Without its last part a path loses what says nothing before that part as well. -/
theorem parent?_eq {front : List String} (cut : dropIdleEnd p.divide.2 = front ++ [name]) :
    p.parent? = some (assemble p.divide.1 (dropIdleEnd front)) := by
  rw [parent?]
  simp only [cut]
  split
  · rename_i none_left _
    exact absurd none_left (by simp)
  · rename_i none_left _
    exact absurd none_left (by simp)
  · rw [List.dropLast_concat]

/-- Behind a piece that is not the name, the name still is the last one. -/
theorem getLast?_of_cons {first : String} {body front : List String}
    (whole : first :: body = front ++ [name]) (differ : first ≠ name) :
    body.getLast? = some name := by
  cases front with
  | nil => exact absurd (List.cons.inj whole).1 differ
  | cons _ rest =>
    rw [(List.cons.inj whole).2]
    exact List.getLast?_concat

/-- The file name of a path that a name was joined to is that name. -/
theorem fileName?_join_name (isName : IsName name) (p : Path) :
    (p.join name).fileName? = some name := by
  obtain ⟨front, joined, _⟩ := pieces_join (isAbsolute_name isName) p
  rw [pieces_eq_singleton isName.unbroken] at joined
  have isLast : (p.join name).divide.2.getLast? = some name := by
    rcases divide_cases (p.join name) with ⟨body, _, whole, cut⟩ | ⟨body, whole, cut⟩ |
      ⟨_, cut⟩ | ⟨whole, cut⟩
    · rw [cut]
      exact getLast?_of_cons (whole.symm.trans joined) isName.nonempty.symm
    · rw [cut]
      exact getLast?_of_cons (whole.symm.trans joined) isName.not_here.symm
    · rw [cut, joined]
      exact List.getLast?_concat
    · exact absurd (pieces_eq_blank_iff.1 whole) (text_join_ne isName p)
  obtain ⟨before, body_eq⟩ := List.getLast?_eq_some_iff.1 isLast
  have stated : isIdlePiece name = false :=
    Bool.eq_false_iff.2 (mt isIdlePiece_iff.1 (not_or.2 ⟨isName.nonempty, isName.not_here⟩))
  rw [fileName?, body_eq, dropIdleEnd, List.reverse_concat, List.dropWhile_cons, stated]
  simp [isName.not_up]

/-- A path whose last part is known ends in it. -/
theorem endsIn_of_dropIdleEnd {front : List String}
    (cut : dropIdleEnd p.divide.2 = front ++ [name]) :
    EndsIn (assemble p.divide.1 (dropIdleEnd front)) p name := by
  obtain ⟨idles, body_eq, idle⟩ := dropIdleEnd_append p.divide.2
  obtain ⟨between, front_eq, idleBetween⟩ := dropIdleEnd_append front
  rw [cut] at body_eq
  have whole : pieces p.text = p.divide.1.opening ++ p.divide.2 :=
    (pieces_divide p).resolve_right fun none_left => by simp [none_left] at body_eq
  have body : p.divide.2 = dropIdleEnd front ++ (between ++ name :: idles) := by
    rw [body_eq, ← List.append_assoc (dropIdleEnd front), ← front_eq, List.append_assoc]
    rfl
  have unbroken : ∀ piece ∈ dropIdleEnd front, '/' ∉ piece.toList := fun piece mem =>
    unbroken_pieces p.text piece (by rw [whole, body]; simp [mem])
  have plain : p.divide.1 = .plain → (dropIdleEnd front).head? ≠ some "" := fun begins blank => by
    refine head?_divide p begins ?_
    rw [body, List.head?_append, blank]
    rfl
  refine ⟨?_, parent?_eq cut, by rw [cut, List.getLast?_concat],
    p.divide.1.opening ++ dropIdleEnd front, between, idles, ?_, pieces_assemble _ unbroken, ?_⟩
  · rw [Bool.eq_iff_iff, isAbsolute_assemble unbroken plain, isAbsolute, decide_eq_true_iff]
  · rw [whole, body, List.append_assoc]
  · exact fun piece mem => (List.mem_append.1 mem).elim (idleBetween piece) (idle piece)

/-- A path that lies in a directory ends in a part behind it. -/
theorem endsIn_of_parent? {above : Path} (cut : p.parent? = some above) (stated : above.text ≠ "") :
    ∃ last, EndsIn above p last := by
  rcases List.eq_nil_or_concat (dropIdleEnd p.divide.2) with none_left | ⟨front, last, ends⟩
  · rw [parent?] at cut
    simp only [none_left] at cut
    split at cut
    · exact absurd (congrArg Path.text (Option.some.inj cut)).symm stated
    · cases cut
    · rename_i stays _
      exact absurd rfl stays
  · rw [List.concat_eq_append] at ends
    have endsIn := endsIn_of_dropIdleEnd ends
    rw [Option.some.inj (cut.symm.trans endsIn.parent?_eq)]
    exact ⟨last, endsIn⟩

/-- A path that ends in a part other than two points has that part for its name. -/
theorem EndsIn.beside {above : Path} (ends : EndsIn above p name) (not_up : name ≠ "..") :
    Beside above p name := by
  obtain ⟨front, between, idles, whole, stem, idle⟩ := ends.split
  rw [List.forall_mem_append] at idle
  have named : p.fileName? = some name := by
    rw [fileName?, ends.last_eq, Option.filter_some, if_pos (decide_eq_true not_up)]
  have isName : IsName name := by
    have := mt isIdlePiece_iff.2 (Bool.eq_false_iff.1 (isIdlePiece_of_getLast? ends.last_eq))
    exact ⟨fun blank => this (.inl blank), fun here => this (.inr here), not_up,
      unbroken_pieces p.text name (by rw [whole]; simp)⟩
  refine ⟨isName, ends.isAbsolute_eq, fun other => ?_, front, between ++ name :: idles, whole,
    by simp, stem, fun start => ?_⟩
  · rw [withFileName, named, ends.parent?_eq]
    rfl
  · rw [leadsTo_append, leadsTo_cons,
      leadsTo_eq_self (fun piece mem => isIdlePiece_iff.1 (idle.1 piece mem)),
      leadFrom_name isName,
      leadsTo_eq_self (fun piece mem => isIdlePiece_iff.1 (idle.2 piece mem))]

/-- **A path with a name at its end lies in the directory that its neighbours are joined to.** -/
theorem exists_beside (named : p.fileName? = some name) : ∃ above, Beside above p name := by
  obtain ⟨isLast, not_up⟩ : (dropIdleEnd p.divide.2).getLast? = some name ∧ name ≠ ".." := by
    simpa [fileName?, Option.filter_eq_some_iff] using named
  obtain ⟨front, cut⟩ := List.getLast?_eq_some_iff.1 isLast
  exact ⟨_, (endsIn_of_dropIdleEnd cut).beside not_up⟩

end Path

/-! ## Where they lead -/

namespace Disk

variable {d : Disk} {p above : Path} {name inner : String}

/-- **A path joined to another one leads on from where that one leads.** -/
theorem locate_join (relative : (Path.mk inner).isAbsolute = false) (d : Disk) (p : Path) :
    d.locate (p.join inner) = leadsTo (d.locate p) (Path.pieces inner) := by
  obtain ⟨front, joined, stem⟩ := Path.pieces_join relative p
  rw [locate, locate, startOf, Path.isAbsolute_join relative, joined, leadsTo_append,
    stem.leadsTo_eq, startOf]

/-- A name joined to a path leads to an entry of the directory there. -/
theorem locate_join_name (isName : IsName name) (d : Disk) (p : Path) :
    d.locate (p.join name) = d.locate p ++ [name] := by
  rw [locate_join (Path.isAbsolute_name isName), Path.pieces_eq_singleton isName.unbroken,
    leadsTo_cons, leadsTo_nil, leadFrom_name isName]

/-- A path with a name at its end leads to an entry of the directory of its neighbours. -/
theorem locate_of_beside (beside : Path.Beside above p name) (d : Disk) :
    d.locate p = d.locate above ++ [name] := by
  obtain ⟨front, rest, whole, _, stem, leads⟩ := beside.split
  rw [locate, whole, leadsTo_append, leads, locate, stem.leadsTo_eq, startOf, startOf,
    beside.isAbsolute_eq]

/-- The pieces of a path lead into a directory.  The path itself may be empty. -/
structure Enters (d : Disk) (p : Path) : Prop where
  start : (d.item? (d.startOf p)).isSome
  reached : d.reach (d.startOf p) (Path.pieces p.text) = .ok (d.locate p)
  directory : ∃ rights, d.item? (d.locate p) = some (.directory rights)

theorem enters_of_kind? (isDirectory : d.kind? p = some .directory) : d.Enters p := by
  obtain ⟨rights, found, there⟩ := kind?_eq_directory_iff.1 isDirectory
  obtain ⟨_, start, reached⟩ := find_eq_ok_iff.1 found
  exact ⟨start, reached, rights, there⟩

/-- More pieces are only followed from a directory. -/
theorem exists_directory_of_reach {location stop : Location} {piece : String} {rest : List String}
    (reached : d.reach location (piece :: rest) = .ok stop) :
    ∃ rights, d.item? location = some (.directory rights) := by
  rw [reach] at reached
  split at reached
  · rename_i rights there
    exact ⟨rights, there⟩
  · cases reached

/-- On the way to a directory there are only directories. -/
theorem exists_directory_on_way {location stop : Location} {front pieces : List String}
    (before : front <+: pieces) (reached : d.reach location pieces = .ok stop)
    (isDirectory : ∃ rights, d.item? stop = some (.directory rights)) :
    ∃ between, d.reach location front = .ok between ∧
      ∃ rights, d.item? between = some (.directory rights) := by
  obtain ⟨behind, rfl⟩ := before
  rw [reach_append] at reached
  obtain ⟨between, there, onward⟩ := exists_of_bind_eq_ok reached
  refine ⟨between, there, ?_⟩
  cases behind with
  | nil => rwa [← Except.ok.inj onward] at isDirectory
  | cons piece rest => exact exists_directory_of_reach onward

/-- A path into a directory leads there without a blank piece at its end as well. -/
theorem Enters.stem {front : List String} (enters : d.Enters p) (stem : Path.IsStem front p) :
    d.reach (d.startOf p) front = .ok (d.locate p) := by
  have reached := enters.reached
  rcases stem with whole | whole
  · rwa [whole] at reached
  · rw [whole, reach_append] at reached
    obtain ⟨location, before, blank⟩ := exists_of_bind_eq_ok reached
    obtain ⟨rights, there⟩ := exists_directory_of_reach blank
    rw [reach, there] at blank
    simp only [reduceIte] at blank
    rw [before, Except.ok.inj blank]

/-- Paths lead into a directory that their pieces reach, without a blank one at the end perhaps. -/
theorem enters_of_stem {front : List String} {location : Location}
    (start : (d.item? (d.startOf p)).isSome) (stem : Path.IsStem front p)
    (reached : d.reach (d.startOf p) front = .ok location)
    (isDirectory : ∃ rights, d.item? location = some (.directory rights)) : d.Enters p := by
  obtain ⟨rights, there⟩ := isDirectory
  have place : d.locate p = location := by
    rw [locate, stem.leadsTo_eq, leadsTo_of_reach reached]
  refine ⟨start, ?_, rights, place ▸ there⟩
  rw [place]
  rcases stem with whole | whole
  · rw [whole, reached]
  · rw [whole, reach_append, reached]
    show d.reach location [""] = .ok location
    rw [reach, there]
    rfl

/-- The neighbours of something that is found lie in a directory that paths lead into. -/
theorem enters_of_beside {location : Location} (beside : Path.Beside above p name)
    (found : d.find p = .ok location) : d.Enters above := by
  obtain ⟨_, start, reached⟩ := find_eq_ok_iff.1 found
  obtain ⟨front, rest, whole, nonempty, stem, _⟩ := beside.split
  rw [whole, reach_append] at reached
  obtain ⟨parent, before, behind⟩ := exists_of_bind_eq_ok reached
  obtain ⟨piece, others, rfl⟩ := List.exists_cons_of_ne_nil nonempty
  have same : d.startOf above = d.startOf p := by rw [startOf, startOf, beside.isAbsolute_eq]
  rw [← same] at start before
  exact enters_of_stem start stem before (exists_directory_of_reach behind)

section

variable {holder : Path} {last : String}

/-- Paths lead into the directory that a directory lies in. -/
theorem Enters.of_endsIn (enters : d.Enters p) (ends : Path.EndsIn above p last) :
    d.Enters above := by
  obtain ⟨front, between, idles, whole, stem, _⟩ := ends.split
  have same : d.startOf above = d.startOf p := by rw [startOf, startOf, ends.isAbsolute_eq]
  obtain ⟨location, before, isDirectory⟩ :=
    exists_directory_on_way ⟨_, whole.symm⟩ enters.reached enters.directory
  rw [← same] at before
  exact enters_of_stem (same ▸ enters.start) stem before isDirectory

/-- Paths lead into the directory that a name joined to a directory lies in, whether or not there is
an entry of that name. -/
theorem Enters.of_endsIn_join (enters : d.Enters holder) (isName : IsName name)
    (ends : Path.EndsIn above (holder.join name) last) : d.Enters above := by
  have relative := Path.isAbsolute_name isName
  obtain ⟨way, joined, stemHolder⟩ := Path.pieces_join relative holder
  obtain ⟨front, between, idles, whole, stem, _⟩ := ends.split
  have same : d.startOf above = d.startOf holder := by
    rw [startOf, startOf, ends.isAbsolute_eq, Path.isAbsolute_join relative]
  -- the name is the last piece, so what comes before the last part is on the way to the directory
  have before : front <+: way := by
    rw [joined, Path.pieces_eq_singleton isName.unbroken] at whole
    refine (List.prefix_concat_iff.1 ⟨_, whole.symm⟩).resolve_left fun all => ?_
    have sizes := congrArg List.length whole
    rw [all] at sizes
    simp at sizes
  obtain ⟨location, reached, isDirectory⟩ :=
    exists_directory_on_way before (enters.stem stemHolder) enters.directory
  rw [← same] at reached
  exact enters_of_stem (same ▸ enters.start) stem reached isDirectory

end

/-- A usable path that starts somewhere may be followed. -/
theorem begin_ne_missing (nonempty : p.text ≠ "") (start : (d.item? (d.startOf p)).isSome) :
    d.begin p ≠ .error .missing := by
  intro refused
  rw [← (Trail.extend_root d (d.startOf p)).2] at start
  obtain ⟨trail, extended⟩ := Option.isSome_iff_exists.1 start
  rw [begin_eq, extended, if_neg nonempty] at refused
  split at refused
  · cases refused
  · split at refused <;> cases refused

/-- The place of a name in a directory that paths lead into is not missing. -/
theorem Enters.place_ne_missing (enters : d.Enters p) (isName : IsName name) :
    d.place (p.join name) ≠ .error .missing := by
  have relative := Path.isAbsolute_name isName
  obtain ⟨front, joined, stem⟩ := Path.pieces_join relative p
  rw [Path.pieces_eq_singleton isName.unbroken] at joined
  have same : d.startOf (p.join name) = d.startOf p := by
    rw [startOf, startOf, Path.isAbsolute_join relative]
  have backwards : ((Path.pieces (p.join name).text).reverse.dropWhile (· = "")).tail.reverse =
      front := by
    rw [joined]
    simp [isName.nonempty]
  intro refused
  rcases refused_of_bind_eq_error refused with begun | ⟨⟨start, pieces⟩, begun, walking⟩
  · have start := enters.start
    rw [← same] at start
    exact begin_ne_missing (Path.text_join_ne isName p) start begun
  obtain ⟨on, place, rfl, _⟩ := on_begin begun
  obtain ⟨way, onTrail⟩ := on.walk front
  rw [place, same, enters.stem stem] at way
  rcases refused_of_bind_eq_error walking with walked | ⟨trail, walked, ending⟩
  · rw [backwards] at walked
    rw [walked] at way
    cases way
  · split at ending
    · cases ending
    · split at ending <;> cases ending

/-- **Nothing is missing for making a directory inside one that paths lead into.** -/
theorem Enters.makeDir_ne_missing (enters : d.Enters p) (isName : IsName name) :
    d.makeDir (p.join name) ≠ .error .missing := by
  intro refused
  rcases refused_of_bind_eq_error refused with placed | ⟨found, _, making⟩
  · exact enters.place_ne_missing isName placed
  · repeat' split at making
    all_goals cases making

end Disk

end MediaSweep
