/-!
# What can go wrong with files

A fault is the reason why the file system refuses an operation.  A failure is a fault together with
what the program was doing, and on which path; its message names both.  Some failures have no fault
behind them.
-/

namespace MediaSweep

set_option autoImplicit false

/-- Why an operation on files is refused. -/
inductive FileFault where
  /-- Something on the path does not exist. -/
  | missing
  | permission
  /-- Something is there already. -/
  | exists
  /-- Something on the path, or what should be listed, is no directory. -/
  | notDirectory
  /-- A directory is used as a file. -/
  | isDirectory
  | nameTooLong
  /-- The path holds the character with code zero. -/
  | nulInPath
  /-- The content is no text. -/
  | notText
  | other (message : String)
  deriving DecidableEq, Repr, Inhabited

/-- The text of a fault. -/
def FileFault.message : FileFault → String
  | .missing => "No such file or directory (os error 2)"
  | .permission => "Permission denied (os error 13)"
  | .exists => "File exists (os error 17)"
  | .notDirectory => "Not a directory (os error 20)"
  | .isDirectory => "Is a directory (os error 21)"
  | .nameTooLong => "File name too long (os error 36)"
  | .nulInPath => "file name contained an unexpected NUL byte"
  | .notText => "stream did not contain valid UTF-8"
  | .other message => message

end MediaSweep
