import MediaSweep.Proofs.Storage.Copying

/-!
# File systems with a disk behind them

The programs run on every file system, and nothing but their results says what a file system does.
Here it is said for file systems that have a disk behind them, with as much as a real one leaves
open.  What is found at a path is what stands on the disk (`Sees`).  The entries of a directory come
in some order, which may be another one each time (`Tells`).  Whatever the disk allows may be
refused all the same, and copying a file may break off in the middle of it (`Obeys`).

The modelled disk keeps to these laws, with the disk itself behind it.
-/

namespace MediaSweep

set_option autoImplicit false

namespace Disk

end Disk

/-- A file system with a disk behind it: looking for something finds what stands on the disk, and
leaves it as it is. -/
structure Sees {σ : Type} [FileSystem (StateM σ)] (disk : σ → Disk) : Prop where
  kind? : ∀ path s, ∃ s', (FileSystem.kind? path : StateM σ (Option FileKind)) s =
    ((disk s).kind? path, s') ∧ disk s' = disk s

/-- A file system that lists every directory that can be listed, in some order. -/
structure Tells {σ : Type} [FileSystem (StateM σ)] (disk : σ → Disk) : Prop extends Sees disk where
  list : ∀ path s entries, (disk s).list path = .ok entries →
    ∃ shuffled s', shuffled.Perm entries ∧
      (FileSystem.list path : StateM σ (Attempt (List (String × FileKind)))) s =
        (.ok shuffled, s') ∧ disk s' = disk s

namespace Disk

theorem sees : Sees (σ := Disk) id where
  kind? := by
    intro path d
    exact ⟨d, rfl, rfl⟩

/-- A disk tells of itself, in the order in which it keeps its entries. -/
theorem tells : Tells (σ := Disk) id where
  toSees := sees
  list := by
    intro path d entries listed
    exact ⟨entries, d, .refl entries, congrArg (·, d) listed, rfl⟩

end Disk

/-- How an attempt to make a directory may end of which a refusal does not matter when there is one:
it may have been made, and a success leaves one. -/
def Disk.Settles (d : Disk) (path : Path) (result : Attempt Unit) (d' : Disk) : Prop :=
  (d' = d ∨ d.makeDir path = .ok d') ∧ (result = .ok () → d'.kind? path = some .directory)

theorem Disk.Settles.of_makeDir {d d' : Disk} {path : Path} (making : d.makeDir path = .ok d') :
    d.Settles path (.ok ()) d' :=
  ⟨.inr making, fun _ => (Disk.of_makeDir making).2.2⟩

section

variable {σ : Type} [FileSystem (StateM σ)] {disk : σ → Disk} {s s' : σ} {path : Path}
  {result : Attempt Unit}

theorem Sees.exists_isDirectory (sees : Sees disk) (path : Path) (s : σ) :
    ∃ s', (FileSystem.isDirectory path : StateM σ Bool) s =
      (decide ((disk s).kind? path = some .directory), s') ∧ disk s' = disk s := by
  obtain ⟨s', asked, kept⟩ := sees.kind? path s
  exact ⟨s', run_bind asked _, kept⟩

end

end MediaSweep
