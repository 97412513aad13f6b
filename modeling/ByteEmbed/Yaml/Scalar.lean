import ByteEmbed.Digit
import ByteEmbed.Yaml.Cursor
import ByteEmbed.Yaml.Problem
import ByteEmbed.Yaml.Token

/-!
# ByteEmbed.Yaml.Scalar — the text of a scalar, in each of its styles.

Plain and quoted scalars are words with white space between them.  White space inside a line is
kept; across lines it is *folded*: one line end becomes a space, and of several the first is
dropped.  A block scalar keeps its lines, less their common indentation, and its header says what
becomes of the line ends after the last line.
-/

namespace ByteEmbed.Yaml.Scalar

/-! ## White space between words -/

/-- White space that was read after a word. -/
structure Gap where
  /-- Blanks before any line end. -/
  blanks : String
  /-- The first line end. -/
  firstBreak : Option Char
  /-- The line ends after the first. -/
  laterBreaks : String
  /-- Whether the gap goes on to another line. -/
  spansLines : Bool
  cursor : Cursor

namespace Gap

/-- A gap of which nothing has been read yet; `spansLines` if an escaped line end opened it. -/
def opened (spansLines : Bool) (cursor : Cursor) : Gap :=
  { blanks := "", firstBreak := none, laterBreaks := "", spansLines, cursor }

/-- What a gap reads as: its blanks, or its line ends folded. -/
def folded (gap : Gap) : String :=
  if gap.spansLines then
    match gap.firstBreak with
    | some '\n' => if gap.laterBreaks.isEmpty then " " else gap.laterBreaks
    | some c => c.toString ++ gap.laterBreaks
    | none => gap.laterBreaks
  else gap.blanks

/-- Reads one more blank or line end.  On a further line, no tab may stand before column
`indent`. -/
def step (indent : Nat) (gap : Gap) : Except Problem (Option Gap) :=
  match gap.cursor.lineBreak?, gap.cursor.head with
  | some (c, cursor), _ =>
    if gap.spansLines then return some { gap with laterBreaks := gap.laterBreaks.push c, cursor }
    else return some { gap with blanks := "", firstBreak := some c, spansLines := true, cursor }
  | none, some c =>
    if isBlank c then
      if gap.spansLines then
        if c == '\t' && gap.cursor.column < indent then throw .tabIndentation
        else return some { gap with cursor := gap.cursor.skip 1 }
      else return some { gap with blanks := gap.blanks.push c, cursor := gap.cursor.skip 1 }
    else return none
  | none, none => return none

/-- Reads the white space at the cursor. -/
def read (indent : Nat) (spansLines : Bool) (cursor : Cursor) : Except Problem Gap :=
  cursor.scan (step indent) (opened spansLines cursor)

end Gap

/-! ## Quoted scalars -/

/-- The character that a one-letter escape stands for. -/
def shortEscape? : Char → Option Char
  | '0' => some '\x00'
  | 'a' => some '\x07'
  | 'b' => some '\x08'
  | 't' | '\t' => some '\t'
  | 'n' => some '\n'
  | 'v' => some '\x0b'
  | 'f' => some '\x0c'
  | 'r' => some '\r'
  | 'e' => some '\x1b'
  | ' ' => some ' '
  | '"' => some '"'
  | '/' => some '/'
  | '\\' => some '\\'
  | 'N' => some '\u0085'
  | '_' => some '\u00a0'
  | 'L' => some '\u2028'
  | 'P' => some '\u2029'
  | _ => none

/-- How many hexadecimal digits follow the letter of a numeric escape. -/
def escapeDigits? : Char → Option Nat
  | 'x' => some 2
  | 'u' => some 4
  | 'U' => some 8
  | _ => none

/-- The character of a code point given by exactly `n` hexadecimal digits at the start of `text`. -/
def codePoint? (n : Nat) (text : List Char) : Option Char := do
  let digits ← (text.take n).mapM (Digit.value? 16)
  guard (digits.length = n)
  let point := digits.foldl (fun value digit => value * 16 + digit) 0
  if h : point.isValidChar then return Char.ofNatAux point h else none

/-- A quoted scalar as far as it was read. -/
structure Quoted where
  text : String
  cursor : Cursor
  /-- Whether an escaped line end was the last thing read. -/
  brokeLine : Bool
  isClosed : Bool

namespace Quoted

/-- Adds a character that is written with `n` characters. -/
def add (scalar : Quoted) (c : Char) (n : Nat) : Quoted :=
  { scalar with text := scalar.text.push c, cursor := scalar.cursor.skip n }

/-- Reads the escape after a backslash. -/
def escapeStep (scalar : Quoted) : Except Problem (Option Quoted) :=
  match scalar.cursor.rest.tail with
  | [] => throw .badEscape
  | c :: text =>
    if isBreak c then
      return some { scalar with
        cursor := (scalar.cursor.skip 1).skipLineBreak, brokeLine := true }
    else
      match shortEscape? c, escapeDigits? c with
      | some meaning, _ => return some (scalar.add meaning 2)
      | none, some n =>
        match codePoint? n text with
        | some meaning => return some (scalar.add meaning (2 + n))
        | none => throw .badEscape
      | none, none => throw .badEscape

/-- Reads one more character of a word. -/
def wordStep (quote : Char) (scalar : Quoted) : Except Problem (Option Quoted) :=
  match scalar.cursor.head with
  | none => return none
  | some c =>
    if scalar.brokeLine || isSpaceOrEnd (some c) then return none
    else if c == quote then
      if quote == '\'' && scalar.cursor.peek 1 == some '\'' then return some (scalar.add c 2)
      else return none
    else if c == '\\' && quote == '"' then escapeStep scalar
    else return some (scalar.add c 1)

/-- Reads one more word and the white space after it, or the closing quote. -/
def lineStep (quote : Char) (scalar : Quoted) : Except Problem (Option Quoted) := do
  if scalar.isClosed then return none
  if scalar.cursor.atDocumentMark then throw .unclosedQuote
  if scalar.cursor.head.isNone then throw .unclosedQuote
  let word ← scalar.cursor.scan (wordStep quote) { scalar with brokeLine := false }
  if word.cursor.head == some quote then
    return some { word with cursor := word.cursor.skip 1, isClosed := true }
  let gap ← Gap.read 0 word.brokeLine word.cursor
  return some { word with text := word.text ++ gap.folded, cursor := gap.cursor }

/-- Reads a scalar in quotes from its opening quote. -/
def read (quote : Char) (cursor : Cursor) : Except Problem (String × Cursor) := do
  let opened : Quoted :=
    { text := "", cursor := cursor.skip 1, brokeLine := false, isClosed := false }
  let scalar ← cursor.scan (lineStep quote) opened
  if scalar.isClosed then return (scalar.text, scalar.cursor) else throw .unclosedQuote

end Quoted

/-! ## Plain scalars -/

/-- Whether `c` is punctuation of flow collections. -/
def isFlowIndicator (c : Char) : Bool :=
  c == ',' || c == '[' || c == ']' || c == '{' || c == '}'

/-- The word of a plain scalar at the start of a text. -/
def plainWord (inFlow : Bool) : List Char → Except Problem (List Char)
  | [] => return []
  | c :: text =>
    let next := text.head?
    if isSpaceOrEnd (some c) then return []
    else if inFlow && c == ':' && next.any (fun d => isFlowIndicator d || d == '?') then
      throw .unexpectedColon
    else if c == ':' && isSpaceOrEnd next then return []
    else if inFlow && isFlowIndicator c then return []
    else return c :: (← plainWord inFlow text)

/-- A plain scalar as far as it was read, and the white space after its last word. -/
structure Plain where
  text : String
  gap : Gap
  isEnded : Bool

namespace Plain

/-- Reads one more word and the white space after it. -/
def step (inFlow : Bool) (indent : Nat) (scalar : Plain) : Except Problem (Option Plain) := do
  let cursor := scalar.gap.cursor
  if scalar.isEnded || cursor.atDocumentMark || cursor.head == some '#' then return none
  let word ← plainWord inFlow cursor.rest
  if word.isEmpty then return none
  let wordEnd := cursor.skip word.length
  let gap ← Gap.read indent false wordEnd
  return some
    { text := scalar.text ++ scalar.gap.folded ++ String.ofList word
      gap
      isEnded := gap.cursor.index == wordEnd.index
        || (!inFlow && gap.cursor.column < indent) }

/-- Reads a plain scalar whose further lines are indented by `indent` at least: its text, whether
white space after it goes on to another line, and the place after that white space. -/
def read (inFlow : Bool) (indent : Nat) (cursor : Cursor) :
    Except Problem (String × Bool × Cursor) := do
  let opened : Plain := { text := "", gap := Gap.opened false cursor, isEnded := false }
  let scalar ← cursor.scan (step inFlow indent) opened
  return (scalar.text, scalar.gap.spansLines, scalar.gap.cursor)

end Plain

/-! ## Block scalars -/

/-- What becomes of the line ends after the last line of a block scalar. -/
inductive Chomping where
  /-- None is kept. -/
  | strip
  /-- The first is kept. -/
  | clip
  /-- All are kept. -/
  | keep
deriving DecidableEq, Repr

/-- The header of a block scalar. -/
structure BlockHeader where
  chomping : Chomping
  /-- The indentation of the scalar, relative to the block it stands in, if it is given. -/
  indent? : Option Nat

/-- The meaning of a chomping indicator. -/
def chomping? : Option Char → Option Chomping
  | some '+' => some .keep
  | some '-' => some .strip
  | _ => none

/-- The indentation that a digit gives; zero is refused. -/
def givenIndent (next : Option Char) : Except Problem (Option Nat) :=
  match next.bind (Digit.value? 10) with
  | some 0 => throw .badBlockHeader
  | given => return given

namespace BlockHeader

/-- Reads the indicators of a header, in either order. -/
def readIndicators (cursor : Cursor) : Except Problem (BlockHeader × Cursor) := do
  match chomping? cursor.head with
  | some chomping =>
    let indent? ← givenIndent (cursor.peek 1)
    return (⟨chomping, indent?⟩, cursor.skip (if indent?.isSome then 2 else 1))
  | none =>
    match ← givenIndent cursor.head with
    | some indent =>
      match chomping? (cursor.peek 1) with
      | some chomping => return (⟨chomping, some indent⟩, cursor.skip 2)
      | none => return (⟨.clip, some indent⟩, cursor.skip 1)
    | none => return (⟨.clip, none⟩, cursor)

/-- Reads a header and the rest of its line, from the character after `|` or `>`. -/
def read (cursor : Cursor) : Except Problem (BlockHeader × Cursor) := do
  let (header, cursor) ← readIndicators cursor
  let cursor := cursor.skipBlanks.skipComment
  if isLineEnd cursor.head then return (header, cursor.skipLineBreak) else throw .badBlockHeader

end BlockHeader

/-- Empty lines of a block scalar: their line ends, and the widest indentation seen. -/
structure EmptyLines where
  breaks : String
  widest : Nat
  cursor : Cursor

namespace EmptyLines

/-- Reads the indentation of one more line, and its end if there is nothing else on it.  Without a
known indentation every space counts as indentation. -/
def step (indent? : Option Nat) (lines : EmptyLines) : Except Problem (Option EmptyLines) := do
  let available := lines.cursor.rest.takeWhile (· == ' ')
  let width := match indent? with
    | some indent => min available.length (indent - lines.cursor.column)
    | none => available.length
  let cursor := lines.cursor.skip width
  let isIndentation := match indent? with
    | some indent => cursor.column < indent
    | none => true
  if isIndentation && cursor.head == some '\t' then throw .tabIndentation
  let widest := max lines.widest cursor.column
  match cursor.lineBreak? with
  | some (c, next) => return some { breaks := lines.breaks.push c, widest, cursor := next }
  | none => if width = 0 then return none else return some { lines with widest, cursor }

/-- Reads the empty lines at the cursor, and the indentation of the line after them. -/
def read (indent? : Option Nat) (cursor : Cursor) : Except Problem EmptyLines :=
  cursor.scan (step indent?) { breaks := "", widest := 0, cursor }

end EmptyLines

/-- A block scalar as far as it was read. -/
structure Block where
  text : String
  /-- The end of the last line, not yet added to the text. -/
  lastBreak : String
  /-- The empty lines after the last line. -/
  emptyLines : String
  /-- Whether the last line starts with a blank. -/
  isIndented : Bool
  cursor : Cursor

namespace Block

/-- The ends of the last line and of the empty lines after it, as they read when another line
follows. -/
def joint (isFolded : Bool) (nextIsIndented : Bool) (block : Block) : String :=
  if isFolded && block.lastBreak == "\n" && !block.isIndented && !nextIsIndented then
    if block.emptyLines.isEmpty then " " else block.emptyLines
  else block.lastBreak ++ block.emptyLines

/-- Reads one more line, and the empty lines after it. -/
def step (isFolded : Bool) (indent : Nat) (block : Block) : Except Problem (Option Block) := do
  let isIndented := block.cursor.head.any isBlank
  if block.cursor.column = indent && block.cursor.head.isSome then
    let (line, cursor) := block.cursor.takeWhile (!isBreak ·)
    let (lastBreak, cursor) := match cursor.lineBreak? with
      | some (c, next) => (c.toString, next)
      | none => ("", cursor)
    let empty ← EmptyLines.read (some indent) cursor
    return some
      { text := block.text ++ block.joint isFolded isIndented ++ String.ofList line
        lastBreak
        emptyLines := empty.breaks
        isIndented
        cursor := empty.cursor }
  else return none

/-- The text of a block scalar that has been read to its end. -/
def chomped (chomping : Chomping) (block : Block) : String :=
  match chomping with
  | .strip => block.text
  | .clip => block.text ++ block.lastBreak
  | .keep => block.text ++ block.lastBreak ++ block.emptyLines

/-- Reads a block scalar from the character after `|` or `>`.  `outer` is the indentation of the
block it stands in, none at the top. -/
def read (isFolded : Bool) (outer : Option Nat) (cursor : Cursor) :
    Except Problem (String × Cursor) := do
  let (header, cursor) ← BlockHeader.read cursor
  let given := header.indent?.map (outer.getD 0 + ·)
  let empty ← EmptyLines.read given cursor
  let least := match outer with
    | some indent => indent + 1
    | none => 1
  let indent := given.getD (max empty.widest least)
  let opened : Block :=
    { text := "", lastBreak := "", emptyLines := empty.breaks, isIndented := false,
      cursor := empty.cursor }
  let block ← empty.cursor.scan (step isFolded indent) opened
  return (block.chomped header.chomping, block.cursor)

end Block

end ByteEmbed.Yaml.Scalar
