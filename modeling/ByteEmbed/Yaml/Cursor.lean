/-!
# ByteEmbed.Yaml.Cursor — a place in a YAML text.

A cursor holds the text still to be read and counts bytes, lines and columns; a column counts
characters.  `Cursor.scan` is the one loop of this folder: it applies a step, which reads a
character or more, until there is nothing more for it, and the size of the text bounds the number of
steps.
-/

namespace ByteEmbed.Yaml

/-! ## Character classes -/

/-- Whether `c` is a space or a tab. -/
def isBlank (c : Char) : Bool := c == ' ' || c == '\t'

/-- Whether `c` ends a line. -/
def isBreak (c : Char) : Bool :=
  c == '\r' || c == '\n' || c == '\u0085' || c == '\u2028' || c == '\u2029'

/-- Whether a character may stand in the name of an anchor, a handle or a directive. -/
def isNameChar (c : Char) : Bool := c.isAlphanum || c == '_' || c == '-'

/-- Whether what may follow a token follows: a blank, a line end, or the end of the text. -/
def isSpaceOrEnd : Option Char → Bool
  | none => true
  | some c => isBlank c || isBreak c

/-- Whether a line ends here, or the text does. -/
def isLineEnd : Option Char → Bool
  | none => true
  | some c => isBreak c

/-- How many bytes the first `n` characters of a text take up. -/
def byteCount (n : Nat) (text : List Char) : Nat :=
  (text.take n).foldl (fun count c => count + c.utf8Size) 0

/-! ## The cursor -/

/-- A place in a text. -/
structure Cursor where
  rest : List Char
  /-- How many characters the whole text has. -/
  size : Nat
  /-- How many bytes were read. -/
  index : Nat
  line : Nat
  /-- How many characters of the line were read. -/
  column : Nat
deriving DecidableEq, Repr

namespace Cursor

/-- The start of a text. -/
def start (text : List Char) : Cursor :=
  { rest := text, size := text.length, index := 0, line := 0, column := 0 }

/-- The character `n` places ahead. -/
def peek (cursor : Cursor) (n : Nat) : Option Char := cursor.rest[n]?

/-- The next character. -/
def head (cursor : Cursor) : Option Char := cursor.rest.head?

/-- Moves over `n` characters that end no line. -/
def skip (cursor : Cursor) (n : Nat) : Cursor :=
  { cursor with
    rest := cursor.rest.drop n
    index := cursor.index + byteCount n cursor.rest
    column := cursor.column + n }

/-- Moves over a line end of `n` characters. -/
def skipBreak (cursor : Cursor) (n : Nat) : Cursor :=
  { cursor with
    rest := cursor.rest.drop n
    index := cursor.index + byteCount n cursor.rest
    line := cursor.line + 1
    column := 0 }

/-- Reads a line end: the character it counts as, and the start of the next line. -/
def lineBreak? (cursor : Cursor) : Option (Char × Cursor) :=
  match cursor.rest with
  | '\r' :: '\n' :: _ => some ('\n', cursor.skipBreak 2)
  | c :: _ =>
    if c == '\u2028' || c == '\u2029' then some (c, cursor.skipBreak 1)
    else if isBreak c then some ('\n', cursor.skipBreak 1)
    else none
  | [] => none

/-- Reads the longest run of characters that satisfy `p`, none of which may end a line. -/
def takeWhile (p : Char → Bool) (cursor : Cursor) : List Char × Cursor :=
  let run := cursor.rest.takeWhile p
  (run, cursor.skip run.length)

/-- Moves over spaces and tabs. -/
def skipBlanks (cursor : Cursor) : Cursor := (cursor.takeWhile isBlank).2

/-- Moves over a comment, if one starts here, up to the end of the line. -/
def skipComment (cursor : Cursor) : Cursor :=
  if cursor.head = some '#' then (cursor.takeWhile (!isBreak ·)).2 else cursor

/-- Moves over a line end, if there is one here. -/
def skipLineBreak (cursor : Cursor) : Cursor :=
  match cursor.lineBreak? with
  | some (_, next) => next
  | none => cursor

/-- Whether three `mark` characters stand at the start of a line, with nothing attached. -/
def atMark (mark : Char) (cursor : Cursor) : Bool :=
  cursor.column == 0 && cursor.rest.take 3 == [mark, mark, mark] && isSpaceOrEnd (cursor.peek 3)

/-- Whether a document starts or ends here. -/
def atDocumentMark (cursor : Cursor) : Bool := cursor.atMark '-' || cursor.atMark '.'

end Cursor

/-! ## Repetition -/

/-- Applies a step until it gives none, at most `bound` times. -/
def repeatUpTo {α ε : Type} (step : α → Except ε (Option α)) : (bound : Nat) → α → Except ε α
  | 0, state => .ok state
  | bound + 1, state =>
    match step state with
    | .error e => .error e
    | .ok none => .ok state
    | .ok (some next) => repeatUpTo step bound next

/-- Applies a step that reads on from a cursor.  As each application reads a character or more, the
size of the text bounds how often it can be applied. -/
def Cursor.scan {α ε : Type} (cursor : Cursor) (step : α → Except ε (Option α)) (state : α) :
    Except ε α :=
  repeatUpTo step cursor.size state

end ByteEmbed.Yaml
