import MediaSweep.Toml.Escape

/-!
# Writing quoted texts

A text is written in the plainest of four ways that can hold it.  Double quotes come first, and
serve as long as nothing has to be escaped but tabs; then single quotes; then three double quotes
without escapes; then three single quotes.  What none of them can hold as it is gets escaped
between double quotes, three of them if it has line ends.

A long text that has a line end starts on a line of its own.  Between three double quotes no three
quotes may follow each other, so each third one is escaped.
-/

namespace MediaSweep.Toml

set_option autoImplicit false

/-- The ways to quote a text. -/
inductive QuoteStyle where
  | basic
  | literal
  | longBasic
  | longLiteral
  deriving DecidableEq, Repr

/-- Whether a character cannot stand unescaped in any quoted text. -/
def isControl (c : Char) : Bool :=
  (c < ' ' && c ≠ '\t' && c ≠ '\n') || c = '\x7f'

/-- Whether a character three times in a row stands in a text. -/
def hasTriple (quote : Char) : List Char → Bool
  | a :: b :: c :: rest =>
    (a = quote && b = quote && c = quote) || hasTriple quote (b :: c :: rest)
  | _ => false

namespace QuoteStyle

/-- The way in which a text is quoted. -/
def of (text : List Char) : QuoteStyle :=
  let control := text.any isControl
  let newline := text.contains '\n'
  let backslash := text.contains '\\'
  if !control && !backslash && !newline && !text.contains '"' then .basic
  else if !control && !newline && !text.contains '\'' then .literal
  else if !control && !backslash && !hasTriple '"' text then .longBasic
  else if !control && !hasTriple '\'' text then .longLiteral
  else if newline then .longBasic
  else .basic

end QuoteStyle

/-- Whether a character is written as an escape between double quotes. -/
def needsEscape (c : Char) : Bool :=
  c < ' ' || c = '\x7f' || c = '"' || c = '\\'

/-- The inside of a text between double quotes. -/
def basicBody (text : List Char) : List Char :=
  text.flatMap fun c => if needsEscape c then escape c else [c]

/-- The inside of a text between three double quotes; `run` quotes stand directly before. -/
def longBasicBody (run : Nat) : List Char → List Char
  | [] => []
  | c :: rest =>
    if c = '"' then
      if run < 2 then '"' :: longBasicBody (run + 1) rest
      else escape '"' ++ longBasicBody 0 rest
    else if c = '\n' then '\n' :: longBasicBody 0 rest
    else if needsEscape c then escape c ++ longBasicBody 0 rest
    else c :: longBasicBody 0 rest

/-- The line end behind the opening quotes of a long text. -/
def longOpening (text : List Char) : List Char :=
  if text.contains '\n' then ['\n'] else []

/-- The characters of a text with its quotes, in the way that suits it. -/
def quoteChars (text : List Char) : List Char :=
  let three (quote : Char) : List Char := List.replicate 3 quote
  match QuoteStyle.of text with
  | .basic => '"' :: basicBody text ++ ['"']
  | .literal => '\'' :: text ++ ['\'']
  | .longBasic => three '"' ++ longOpening text ++ longBasicBody 0 text ++ three '"'
  | .longLiteral => three '\'' ++ longOpening text ++ text ++ three '\''

/-- A text with its quotes. -/
def quote (text : String) : String :=
  String.ofList (quoteChars text.toList)

end MediaSweep.Toml
