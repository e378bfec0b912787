import MediaSweep.Proofs.Storage.Copying

/-!
# How deep a copy gets

Copying a directory takes a bound on how deep it may get.  A source is only so deep
(`Disk.Proper.exists_shallow`), and a copy beside it gets no deeper, so it is the same for every
bound beyond that (`Disk.copyTree_eq_of_shallow`): the copy ends because its source does.

The bound in use is beyond what any path can reach.  Going down makes the path of the target longer,
and under a path that is too long nothing is made (`Disk.copyTree_eq_of_long`).  So no copy ends
because of the bound (`Disk.copyTree_eq_of_nestingLimit_le`).
-/

namespace MediaSweep

set_option autoImplicit false

/-! ## Shallow trees -/

theorem exists_bound {α : Type} {P : α → Nat → Prop} (grow : ∀ a m n, m ≤ n → P a m → P a n)
    {as : List α} (bounded : ∀ a ∈ as, ∃ n, P a n) : ∃ n, ∀ a ∈ as, P a n := by
  induction as with
  | nil => exact ⟨0, by simp⟩
  | cons a rest ih =>
    obtain ⟨⟨m, first⟩, others⟩ := List.forall_mem_cons.1 bounded
    obtain ⟨n, behind⟩ := ih others
    refine ⟨max m n, List.forall_mem_cons.2 ⟨grow a m _ (Nat.le_max_left m n) first, ?_⟩⟩
    exact fun other mem => grow other n _ (Nat.le_max_right m n) (behind other mem)

/-- What lies in a node lies only so deep. -/
theorem Node.Proper.exists_length_le {node : Node} (proper : node.Proper) :
    ∃ most, ∀ inner, (node.at? inner).isSome → inner.length ≤ most := by
  induction proper with
  | file rights content =>
    refine ⟨0, fun inner there => ?_⟩
    cases inner with
    | nil => exact Nat.le_refl 0
    | cons name rest => simp at there
  | directory rights _ _ _ ih =>
    obtain ⟨most, bounded⟩ := exists_bound
      (fun _ _ _ le bounded inner there => Nat.le_trans (bounded inner there) le) ih
    refine ⟨most + 1, fun inner there => ?_⟩
    cases inner with
    | nil => exact Nat.zero_le _
    | cons name rest =>
      rw [Node.at?_cons_directory] at there
      obtain ⟨node, found⟩ := Option.isSome_iff_exists.1 there
      obtain ⟨entry, lookedUp, within⟩ := Option.bind_eq_some_iff.1 found
      obtain ⟨front, back, rfl, _⟩ := List.lookup_eq_some_iff.1 lookedUp
      have := bounded (name, entry) (by simp) rest (by rw [within]; rfl)
      exact Nat.succ_le_succ this

namespace Disk

variable {d : Disk} {location : Location}

/-- No directory lies more than this many directories below a location. -/
def Shallow (d : Disk) (location : Location) (most : Nat) : Prop :=
  ∀ inner rights, d.item? (location ++ inner) = some (.directory rights) → inner.length ≤ most

theorem Proper.exists_shallow (proper : d.Proper) (location : Location) :
    ∃ most, d.Shallow location most := by
  obtain ⟨most, bounded⟩ := Node.Proper.exists_length_le proper
  refine ⟨most, fun inner rights there => ?_⟩
  have deep := bounded (location ++ inner) (by
    rw [← Option.isSome_map]
    exact Option.isSome_iff_exists.2 ⟨_, there⟩)
  rw [List.length_append] at deep
  omega

/-! ## Copying a shallow directory -/

variable {first second : Path → Path → Run (Attempt Unit)} {origin destination : Path}
  {entries : List (String × FileKind)}

/-- Two programs copy the same entries alike when they copy the directories among them alike. -/
theorem copyEntries_congr (copies : CopiesDirectories first)
    (ready : d.ReadyFor origin destination entries)
    (agree : ∀ {name : String} {rights : Rights}, IsName name →
      d.item? (d.locate origin ++ [name]) = some (.directory rights) →
      ∀ {e : Disk}, d.Mirrors (d.locate origin) (d.locate destination) e →
        e.Ready (origin.join name) (destination.join name) →
          first (origin.join name) (destination.join name) e =
            second (origin.join name) (destination.join name) e)
    {e : Disk} (mirrors : d.Mirrors (d.locate origin) (d.locate destination) e) :
    copyEntries first origin destination entries e =
      copyEntries second origin destination entries e := by
  induction entries generalizing e with
  | nil => rfl
  | cons entry rest ih =>
    obtain ⟨name, kind⟩ := entry
    obtain ⟨isName, item, stands, rfl⟩ := (List.forall_mem_cons.1 ready.listed).1
    have readyNow := ready.after mirrors
    have standsNow : e.item? (e.locate origin ++ [name]) = some item := by
      rwa [mirrors.locate_eq, mirrors.item?_source ready.apart]
    have same : copyEntry first origin destination name item.kind e =
        copyEntry second origin destination name item.kind e := by
      cases item with
      | file rights content => rfl
      | directory rights => exact agree isName stands mirrors (readyNow.inside isName standsNow)
    rw [copyEntries_cons, copyEntries_cons]
    cases ran : copyEntry first origin destination name item.kind e with
    | mk copied e₁ =>
      rw [run_bind ran, run_bind (same ▸ ran)]
      cases copied with
      | error fault => rfl
      | ok _ =>
        have mirrorsFirst := (of_copyEntry copies readyNow isName standsNow ran).1.widen
        rw [mirrors.locate_eq, mirrors.locate_eq] at mirrorsFirst
        exact ih ready.tail (mirrors.trans ready.apart mirrorsFirst)

/-- Below a directory there is one level less. -/
theorem Shallow.below {most : Nat} {name : String} {rights : Rights}
    (shallow : d.Shallow location most)
    (there : d.item? (location ++ [name]) = some (.directory rights)) :
    ∃ fewer, most = fewer + 1 ∧ d.Shallow (location ++ [name]) fewer := by
  have one := shallow [name] rights there
  refine ⟨most - 1, by simp at one; omega, fun inner rights deeper => ?_⟩
  rw [List.append_assoc] at deeper
  have := shallow _ rights deeper
  simp at this
  omega

/-- A source stays as shallow as it is. -/
theorem Shallow.mirrors {e : Disk} {source target further : Location} {most : Nat}
    (shallow : d.Shallow (source ++ further) most) (apart : Apart source target)
    (mirrors : d.Mirrors source target e) : e.Shallow (source ++ further) most := by
  intro inner rights there
  rw [List.append_assoc, mirrors.item?_source apart, ← List.append_assoc] at there
  exact shallow inner rights there

/-- Two bounds make no difference when they make none for the directories below. -/
theorem copyTree_congr {depth deeper : Nat} {source target : Path} (ready : d.Ready source target)
    (agree : ∀ {name : String} {rights : Rights}, IsName name →
      d.item? (d.locate source ++ [name]) = some (.directory rights) →
      ∀ {e : Disk}, d.Mirrors (d.locate source) (d.locate target) e →
        e.Ready (source.join name) (target.join name) →
          (copyTree depth (source.join name) (target.join name) : Run (Attempt Unit)) e =
            (copyTree deeper (source.join name) (target.join name) : Run (Attempt Unit)) e) :
    (copyTree (depth + 1) source target : Run (Attempt Unit)) d =
      (copyTree (deeper + 1) source target : Run (Attempt Unit)) d := by
  rw [copyTree, copyTree]
  cases making : (FileSystem.makeDirs target : Run (Attempt Unit)) d with
  | mk made d₁ =>
    rw [run_bind making, run_bind making]
    cases made with
    | error fault => rfl
    | ok _ =>
      have listing : (FileSystem.list source : Run _) d₁ = (d₁.list source, d₁) := rfl
      dsimp only
      rw [run_bind listing, run_bind listing]
      cases lists : d₁.list source with
      | error fault => rfl
      | ok entries =>
        obtain ⟨mirrors, _⟩ := ready.of_makeDirs making
        refine copyEntries_congr (copiesDirectories_copyTree depth) (ready.readyFor making lists)
          ?_ (.refl d₁ _ _)
        intro name rights isName stands e mirrorsRest readyBelow
        rw [mirrors.locate_eq, mirrors.item?_source ready.apart] at stands
        rw [mirrors.locate_eq, mirrors.locate_eq] at mirrorsRest
        exact agree isName stands (mirrors.trans ready.apart mirrorsRest) readyBelow

/-- **A copy gets no deeper than its source**, so a bound beyond that makes no difference. -/
theorem copyTree_eq_of_shallow {most depth deeper : Nat} {source target : Path}
    (ready : d.Ready source target) (shallow : d.Shallow (d.locate source) most)
    (enough : most < depth) (more : most < deeper) :
    (copyTree depth source target : Run (Attempt Unit)) d =
      (copyTree deeper source target : Run (Attempt Unit)) d := by
  induction depth generalizing d source target most deeper with
  | zero => exact absurd enough (Nat.not_lt_zero _)
  | succ depth ih =>
    obtain ⟨deeper, rfl⟩ : ∃ n, deeper = n + 1 := ⟨deeper - 1, by omega⟩
    refine copyTree_congr ready fun isName stands e mirrors readyBelow => ?_
    obtain ⟨fewer, rfl, shallowBelow⟩ := shallow.below stands
    refine ih readyBelow ?_ (Nat.lt_of_succ_lt_succ enough) (Nat.lt_of_succ_lt_succ more)
    rw [locate_join_name isName, mirrors.locate_eq]
    exact shallowBelow.mirrors ready.apart mirrors

/-! ## The bound in use -/

theorem short_of_kind? {path : Path} (isDirectory : d.kind? path = some .directory) :
    path.text.utf8ByteSize < pathLimit := by
  obtain ⟨_, found, _⟩ := kind?_eq_directory_iff.1 isDirectory
  exact (find_eq_ok_iff.1 found).1.short

/-- Nothing is made under a path that is too long. -/
theorem Attaches.makeDirs_of_long {path : Path} (attaches : d.Attaches path)
    (long : pathLimit ≤ path.text.utf8ByteSize) :
    ∃ fault, (FileSystem.makeDirs path : Run (Attempt Unit)) d = (.error fault, d) := by
  rw [attaches.makeDirs_eq]
  split
  · rename_i made
    exact absurd (short_of_kind? (of_makeDir made).2.2) (Nat.not_lt_of_le long)
  · rename_i fault _
    refine ⟨fault, ?_⟩
    rw [if_neg fun isDirectory => Nat.not_lt_of_le long (short_of_kind? isDirectory)]

theorem utf8ByteSize_join {name : String} (isName : IsName name) (path : Path) :
    path.text.utf8ByteSize < (path.join name).text.utf8ByteSize := by
  have stated : 0 < name.utf8ByteSize :=
    Nat.pos_of_ne_zero (mt String.utf8ByteSize_eq_zero_iff.1 isName.nonempty)
  have longer := Path.le_utf8ByteSize_join isName path
  omega

/-- **The bound in use is never what ends a copy**: before it is reached, paths get too long. -/
theorem copyTree_eq_of_long {depth deeper : Nat} {source target : Path}
    (ready : d.Ready source target) (long : pathLimit ≤ target.text.utf8ByteSize + depth)
    (more : depth ≤ deeper) :
    (copyTree (depth + 1) source target : Run (Attempt Unit)) d =
      (copyTree (deeper + 1) source target : Run (Attempt Unit)) d := by
  induction depth generalizing d source target deeper with
  | zero =>
    obtain ⟨fault, refused⟩ := ready.attaches.makeDirs_of_long long
    rw [copyTree, copyTree, run_bind refused, run_bind refused]
  | succ depth ih =>
    obtain ⟨deeper, rfl⟩ : ∃ n, deeper = n + 1 := ⟨deeper - 1, by omega⟩
    refine copyTree_congr ready fun isName stands e mirrors readyBelow => ?_
    have longer := utf8ByteSize_join isName target
    exact ih readyBelow (by omega) (Nat.le_of_succ_le_succ more)

/-- No greater bound would make a difference to the one in use. -/
theorem copyTree_eq_of_nestingLimit_le {depth : Nat} {source target : Path}
    (ready : d.Ready source target) (more : nestingLimit ≤ depth) :
    (copyTree nestingLimit source target : Run (Attempt Unit)) d =
      (copyTree depth source target : Run (Attempt Unit)) d := by
  have stated : 0 < target.text.utf8ByteSize := by
    obtain ⟨holder, name, rfl, isName, _⟩ := ready.attaches
    exact Nat.lt_of_le_of_lt (Nat.zero_le _) (utf8ByteSize_join isName holder)
  obtain ⟨deeper, rfl⟩ : ∃ n, depth = n + 1 := ⟨depth - 1, by rw [nestingLimit] at more; omega⟩
  refine copyTree_eq_of_long ready ?_ (Nat.le_of_succ_le_succ more)
  rw [pathLimit]
  omega

end Disk

end MediaSweep
