/-!
# Texts without what only steers a terminal

A terminal takes some characters not as text but as the beginning of a sequence that steers it, and
the sequence goes on until a character that ends it.  Words that a message repeats can hold such
sequences, and where nothing may be steered only the text of them is shown.  `withoutSequences` is
that text: the characters that stand outside of every sequence and are not control characters.

The controls that set out text, tab and line ends, are shown even inside a sequence.  They hold it
up: what follows is text, until a control character that is not shown lets the sequence go on.
-/

namespace MediaSweep.Text

set_option autoImplicit false

/-- What a terminal is in the middle of. -/
inductive TerminalState where
  /-- Text, outside of every sequence. -/
  | text
  /-- A sequence that has only begun. -/
  | escape
  /-- A short sequence, to be ended by its last character. -/
  | escapeTail
  /-- A control sequence. -/
  | control
  /-- The beginning of a string for a device. -/
  | device
  /-- The parameters of a string for a device. -/
  | deviceParameters
  /-- The characters between the parameters of a string for a device and its command. -/
  | deviceTail
  /-- A command to the operating system. -/
  | command
  /-- A string of any other kind, or the inner part of one for a device. -/
  | string
  deriving DecidableEq, Repr

/-- Whether a character lies between two others or is one of them. -/
def isBetween (first last c : Char) : Bool :=
  first ≤ c && c ≤ last

/-- The byte that ends a string, even in the middle of a character. -/
def stringEnd : UInt8 := 0x9c

/-- The control characters that set out text. -/
def setsOutText (c : Char) : Bool :=
  c = '\t' || c = '\n' || c = '\x0c' || c = '\r'

namespace TerminalState

/-- What a terminal is in the middle of after one more character. -/
def after (state : TerminalState) (c : Char) : TerminalState :=
  if c = '\x1b' then escape
  else if c = '\x18' ∨ c = '\x1a' then text
  else
    match state with
    | text => text
    | escape =>
      if isBetween ' ' '/' c then escapeTail
      else if c = '[' then control
      else if c = ']' then command
      else if c = 'P' then device
      else if c = 'X' ∨ c = '^' ∨ c = '_' then string
      else if isBetween '0' '~' c then text
      else escape
    | escapeTail => if isBetween '0' '~' c then text else escapeTail
    | control => if isBetween '@' '~' c then text else control
    | device =>
      if isBetween ' ' '/' c then deviceTail
      else if isBetween '0' '?' c then deviceParameters
      else if isBetween '@' '~' c then string
      else device
    | deviceParameters =>
      if isBetween ' ' '/' c then deviceTail
      else if isBetween '<' '~' c then string
      else deviceParameters
    | deviceTail => if isBetween '0' '~' c then string else deviceTail
    | command => if c = '\x07' then text else command
    | string => if (String.utf8EncodeChar c).contains stringEnd then text else string

/-- Whether a character is shown in a state.  Inside strings and commands and in their beginnings
none is. -/
def shows (state : TerminalState) (c : Char) : Bool :=
  match state with
  | text => setsOutText c || (' ' ≤ c && c ≠ '\x7f')
  | escape => setsOutText c
  | escapeTail => setsOutText c
  | control => setsOutText c
  | _ => false

/-- The characters that are shown; `held` says whether the sequence is held up. -/
def visible (held : Bool) (state : TerminalState) : List Char → List Char
  | [] => []
  | c :: rest =>
    if (if held then text else state).shows c then
      c :: visible true (if c.toNat < 0x80 then state else text) rest
    else visible false (state.after c) rest

/-- No character is added, and their order stays. -/
theorem visible_sublist (cs : List Char) : ∀ (held : Bool) (state : TerminalState),
    (visible held state cs).Sublist cs := by
  induction cs with
  | nil => exact fun _ _ => List.Sublist.refl _
  | cons c rest ih =>
    intro held state
    by_cases shown : (if held then text else state).shows c
    · rw [visible, if_pos shown]
      exact (ih _ _).cons_cons c
    · rw [visible, if_neg shown]
      exact (ih _ _).cons c

/-- Outside of sequences, text that is all shown stays as it is. -/
theorem visible_eq_self (cs : List Char) (plain : ∀ c ∈ cs, text.shows c) :
    ∀ held : Bool, visible held text cs = cs := by
  induction cs with
  | nil => exact fun _ => rfl
  | cons c rest ih =>
    intro held
    have first : text.shows c := plain c (by simp)
    have others := ih fun d member => plain d (by simp [member])
    simp [visible, first, others]

end TerminalState

/-- A text without sequences that steer a terminal. -/
def withoutSequences (text : String) : String :=
  String.ofList (TerminalState.visible false .text text.toList)

end MediaSweep.Text
