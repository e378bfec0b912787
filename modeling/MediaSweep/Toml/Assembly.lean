import MediaSweep.Toml.Value

/-!
# Putting tables together

An entry is added at the end of a path that starts in a table.  On its way it passes through the
tables of the path and makes those that are missing.  A path of dotted keys may pass through tables
that are only passed through or made by dotted keys, and adds to tables of the second kind; a path
of a header may pass through every table but those between braces.  The last table of a repeated
header stands for all of them.
-/

namespace MediaSweep.Toml

set_option autoImplicit false

/-- What a path is the path of. -/
inductive PathKind where
  | header
  | dotted
  deriving DecidableEq, Repr

namespace PathKind

/-- How tables that are made on the way come to be. -/
def makes : PathKind → Origin
  | header => .passed
  | dotted => .dotted

/-- Whether a table can be passed through. -/
def passes : PathKind → Origin → Bool
  | _, .inlined => false
  | header, _ => true
  | dotted, origin => origin = .passed || origin = .dotted

end PathKind

/-- Visit the table at the end of a path: take something from it and put it back changed. -/
def Table.visitAt {β : Type} (kind : PathKind) (visit : Table Value → Option (β × Table Value)) :
    List String → Table Value → Option (β × Table Value)
  | [], t => visit t
  | key :: path, t =>
    match t.find? key with
    | none => do
      let (b, child) ← Table.visitAt kind visit path (.empty kind.makes)
      some (b, t.push key (.table child))
    | some (.table child) =>
      if kind.passes child.origin then do
        let (b, child) ← Table.visitAt kind visit path child
        some (b, t.replace key (.table child))
      else none
    | some (.tables last earlier) => do
      let (b, last) ← Table.visitAt kind visit path last
      some (b, t.replace key (.tables last earlier))
    | some _ => none

/-- Change the table at the end of a path. -/
def Table.changeAt (kind : PathKind) (change : Table Value → Option (Table Value))
    (path : List String) (t : Table Value) : Option (Table Value) :=
  (Table.visitAt kind (fun last => (change last).map ((), ·)) path t).map (·.2)

/-- Add an entry to a table, at the end of a path of dotted keys.  Only tables that dotted keys made
can be added to through them. -/
def Table.define (t : Table Value) (path : List String) (key : String) (value : Value) :
    Option (Table Value) :=
  Table.changeAt .dotted
    (fun last =>
      if decide (last.origin = .dotted) = path.isEmpty then none
      else if (last.find? key).isSome then none
      else some (last.push key value))
    path t

/-- Add an entry whose key is the last part of a path. -/
def Table.defineAt (t : Table Value) (path : List String) (value : Value) :
    Option (Table Value) :=
  path.getLast?.bind fun key => t.define path.dropLast key value

/-- The table between braces with the given entries. -/
def Table.ofInline (entries : List (List String × Value)) : Option (Table Value) :=
  entries.foldlM (fun t (path, value) => t.defineAt path value) (.empty .inlined)

end MediaSweep.Toml
