import MediaSweep.Number.Binary64

/-!
# Values of a TOML document

A document is a table whose entries stay in the order they were written in.  Next to its entries
a table remembers how it came to be, because that decides who may still add to it: a table that is
only passed through on the way to another one can be opened later, one that was opened cannot be
opened again.

Dates and times are recognised and checked but not kept: nothing that is read from a document here
is a date.
-/

namespace MediaSweep.Toml

set_option autoImplicit false

/-- How a table came to be. -/
inductive Origin where
  /-- It has a header of its own, or it is the document. -/
  | header
  /-- A longer header passes through it. -/
  | passed
  /-- A dotted key passes through it. -/
  | dotted
  /-- It is written between braces. -/
  | inlined
  deriving DecidableEq, Repr

/-- A table with entries of some type, in the order of writing. -/
structure Table (α : Type) where
  origin : Origin
  entries : List (String × α)
  deriving Repr

/-- A value of a document. -/
inductive Value where
  | string (text : String)
  | integer (number : Int)
  | float (number : Number.Binary64)
  | boolean (flag : Bool)
  /-- A date, a time or both. -/
  | moment
  | array (items : List Value)
  | table (content : Table Value)
  /-- The tables of a repeated header: the last one, which can still grow, and the earlier ones,
  from the last to the first. -/
  | tables (last : Table Value) (earlier : List (Table Value))
  deriving Repr

namespace Table

variable {α : Type}

/-- A table without entries. -/
def empty (origin : Origin) : Table α :=
  ⟨origin, []⟩

/-- The value at a key. -/
def find? (t : Table α) (key : String) : Option α :=
  t.entries.lookup key

/-- Add an entry behind the others. -/
def push (t : Table α) (key : String) (value : α) : Table α :=
  { t with entries := t.entries ++ [(key, value)] }

/-- Put another value at a key, in its place. -/
def replace (t : Table α) (key : String) (value : α) : Table α :=
  { t with entries := t.entries.map fun e => if e.1 = key then (key, value) else e }

/-- Take out the entry at a key. -/
def erase (t : Table α) (key : String) : Table α :=
  { t with entries := t.entries.filter fun e => e.1 ≠ key }

@[simp]
theorem entries_push (t : Table α) (key : String) (value : α) :
    (t.push key value).entries = t.entries ++ [(key, value)] := rfl

@[simp]
theorem origin_push (t : Table α) (key : String) (value : α) :
    (t.push key value).origin = t.origin := rfl

end Table

end MediaSweep.Toml
