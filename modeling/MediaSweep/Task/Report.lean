import MediaSweep.Output.Notice
import MediaSweep.Storage.Failure

/-!
# Reports

A task tells what it does while it goes on, and either comes to its end or stops.  A stop has causes,
told from the outside in: what the task was about, what failed, and why.
-/

namespace MediaSweep

set_option autoImplicit false

/-- Why a task stopped. -/
structure Stop where
  /-- The outermost cause. -/
  cause : String
  /-- The causes behind it, down to the innermost. -/
  because : List String := []
  deriving DecidableEq, Repr

namespace Stop

/-- A failure as the reason of a stop, with what is behind it. -/
def ofFailure (failure : Failure) : Stop :=
  ⟨failure.message, failure.source?.toList⟩

/-- A failure, seen from what the task was about. -/
def about (context : String) (failure : Failure) : Stop :=
  ⟨context, failure.message :: failure.source?.toList⟩

/-- The causes in one line, from the outside in. -/
def line (s : Stop) : String :=
  String.intercalate ": " (s.cause :: s.because)

end Stop

/-- What a task told, and why it stopped, if it did. -/
structure Report where
  notices : List Notice
  stop? : Option Stop := none
  deriving DecidableEq, Repr

namespace Report

/-- The report of a task that came to its end. -/
def done (notices : List Notice) : Report :=
  ⟨notices, none⟩

/-- The report of a task that stopped on its way. -/
def stopped (notices : List Notice) (stop : Stop) : Report :=
  ⟨notices, some stop⟩

/-- The report of a task that could not even start. -/
def refused (cause : String) : Report :=
  stopped [] ⟨cause, []⟩

/-- The report of a task that stopped at a failure. -/
def failed (notices : List Notice) (failure : Failure) : Report :=
  stopped notices (.ofFailure failure)

end Report

end MediaSweep
