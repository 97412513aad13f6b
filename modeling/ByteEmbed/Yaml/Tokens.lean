import ByteEmbed.Yaml.Scalar
import ByteEmbed.Yaml.Tag

/-!
# ByteEmbed.Yaml.Tokens — a YAML text as a list of tokens.

Two things make tokens appear out of the order of the text.  A *simple key* is recognised only at
the colon after it: every token that might start one is remembered, and when a colon comes in time,
on the same line and within 1024 bytes, a key token is put in front of it.  And indentation
opens and closes block collections: the columns of the open ones form a stack.
-/

namespace ByteEmbed.Yaml

/-- A token that may turn out to start a simple key. -/
structure SimpleKey where
  /-- Its place among the tokens. -/
  position : Nat
  /-- Whether nothing but a key may stand there. -/
  isRequired : Bool
  index : Nat
  line : Nat
  column : Nat
deriving DecidableEq, Repr

/-- How many bytes may lie between the start of a simple key and its colon. -/
def longestKey : Nat := 1024

/-- A text as far as it was read into tokens. -/
structure Tokenizing where
  cursor : Cursor
  tokens : Array Token
  /-- The columns of the open block collections, innermost first. -/
  columns : List Nat
  /-- Whether a simple key may start here. -/
  allowsKey : Bool
  /-- The possible simple key of the innermost flow collection. -/
  candidate : Option SimpleKey
  /-- Those of the flow collections around it, and of the block context around them all. -/
  outerCandidates : List (Option SimpleKey)
  isEnded : Bool

namespace Tokenizing

/-- A text of which nothing was read. -/
def ofText (text : List Char) : Tokenizing :=
  { cursor := Cursor.start text, tokens := #[], columns := [], allowsKey := true,
    candidate := none, outerCandidates := [], isEnded := false }

/-- Whether the place is inside of a flow collection. -/
def inFlow (state : Tokenizing) : Bool := !state.outerCandidates.isEmpty

/-- Adds a token that is written with `n` characters. -/
def push (state : Tokenizing) (token : Token) (n : Nat) : Tokenizing :=
  { state with tokens := state.tokens.push token, cursor := state.cursor.skip n }

/-- Adds a token that was read up to `cursor`. -/
def pushRead (state : Tokenizing) (token : Token) (cursor : Cursor) : Tokenizing :=
  { state with tokens := state.tokens.push token, cursor }

/-! ## Simple keys -/

/-- Drops a candidate; a required one is a key whose colon is missing. -/
def discard (candidate : Option SimpleKey) : Except Problem (Option SimpleKey) :=
  match candidate with
  | some key => if key.isRequired then throw .missingColon else return none
  | none => return none

/-- Keeps a candidate as long as a colon could still make it a key. -/
def refresh (cursor : Cursor) (candidate : Option SimpleKey) :
    Except Problem (Option SimpleKey) :=
  match candidate with
  | some key =>
    if key.line < cursor.line || key.index + longestKey < cursor.index then discard candidate
    else return candidate
  | none => return none

/-- Drops every candidate that is out of reach. -/
def refreshCandidates (state : Tokenizing) : Except Problem Tokenizing := do
  let outerCandidates ← state.outerCandidates.mapM (refresh state.cursor)
  let candidate ← refresh state.cursor state.candidate
  return { state with candidate, outerCandidates }

/-- Drops the candidate of the innermost collection. -/
def dropCandidate (state : Tokenizing) : Except Problem Tokenizing := do
  return { state with candidate := ← discard state.candidate }

/-- Makes the token to come a candidate, if a simple key may start here. -/
def saveCandidate (state : Tokenizing) : Except Problem Tokenizing := do
  if state.allowsKey then
    let _ ← discard state.candidate
    let key : SimpleKey :=
      { position := state.tokens.size
        isRequired := !state.inFlow && state.columns.head? == some state.cursor.column
        index := state.cursor.index
        line := state.cursor.line
        column := state.cursor.column }
    return { state with candidate := some key }
  else return state

/-! ## Indentation -/

/-- Opens a block collection at a column that lies past those of the open ones, with its start token
put at a place among the tokens. -/
def indentTo (state : Tokenizing) (column : Nat) (position : Nat) (start : Token) : Tokenizing :=
  if !state.inFlow && state.columns.head?.all (· < column) then
    { state with
      columns := column :: state.columns
      tokens := state.tokens.insertIdxIfInBounds position start }
  else state

/-- The columns that are left, and the end tokens due, when collections past a column are closed. -/
def closed (column? : Option Nat) : List Nat → List Nat × List Token
  | [] => ([], [])
  | column :: columns =>
    if column?.all (· < column) then
      let (left, ends) := closed column? columns
      (left, .blockEnd :: ends)
    else (column :: columns, [])

/-- Closes the block collections past a column, or all of them if there is none. -/
def dedentTo (state : Tokenizing) (column? : Option Nat) : Tokenizing :=
  if state.inFlow then state
  else
    let (columns, ends) := closed column? state.columns
    { state with columns, tokens := state.tokens ++ ends.toArray }

/-! ## Tokens by their first character -/

/-- The end of the text closes everything. -/
def finish (state : Tokenizing) : Except Problem Tokenizing := do
  let state ← (state.dedentTo none).dropCandidate
  return { state with isEnded := true }

/-- A directive stands at the start of a line, outside of every collection. -/
def directive (state : Tokenizing) : Except Problem Tokenizing := do
  let state ← (state.dedentTo none).dropCandidate
  let (token, cursor) ← Tag.readDirective state.cursor
  return { state.pushRead token cursor with allowsKey := false }

/-- A mark of a document's start or end. -/
def documentMark (state : Tokenizing) (token : Token) : Except Problem Tokenizing := do
  let state ← (state.dedentTo none).dropCandidate
  return { state.push token 3 with allowsKey := false }

/-- The start of a flow collection, which may itself be a key. -/
def openFlow (state : Tokenizing) (token : Token) : Except Problem Tokenizing := do
  let state ← state.saveCandidate
  return { state.push token 1 with
    allowsKey := true
    candidate := none
    outerCandidates := state.candidate :: state.outerCandidates }

/-- The end of a flow collection. -/
def closeFlow (state : Tokenizing) (token : Token) : Except Problem Tokenizing := do
  let state ← state.dropCandidate
  let state := match state.outerCandidates with
    | candidate :: outerCandidates => { state with candidate, outerCandidates }
    | [] => state
  return { state.push token 1 with allowsKey := false }

/-- The comma between entries of a flow collection. -/
def flowEntry (state : Tokenizing) : Except Problem Tokenizing := do
  let state ← state.dropCandidate
  return { state.push .flowEntry 1 with allowsKey := true }

/-- In a block, opens a collection for an indicator, if one may stand here. -/
def openBlock (state : Tokenizing) (indicator : Char) (start : Token) :
    Except Problem Tokenizing :=
  if state.inFlow then return state
  else if state.allowsKey then
    return state.indentTo state.cursor.column state.tokens.size start
  else throw (.misplacedIndicator indicator)

/-- The hyphen before an entry of a block sequence. -/
def blockEntry (state : Tokenizing) : Except Problem Tokenizing := do
  let state ← state.openBlock '-' .blockSequenceStart
  let state ← state.dropCandidate
  return { state.push .blockEntry 1 with allowsKey := true }

/-- The question mark before a key. -/
def explicitKey (state : Tokenizing) : Except Problem Tokenizing := do
  let state ← state.openBlock '?' .blockMappingStart
  let state ← state.dropCandidate
  return { state.push .key 1 with allowsKey := !state.inFlow }

/-- The colon before a value: it makes a key of the candidate, if there is one. -/
def value (state : Tokenizing) : Except Problem Tokenizing := do
  match state.candidate with
  | some key =>
    let tokens := state.tokens.insertIdxIfInBounds key.position .key
    let state := { state with tokens }.indentTo key.column key.position .blockMappingStart
    return { state.push .value 1 with candidate := none, allowsKey := false }
  | none =>
    let state ← state.openBlock ':' .blockMappingStart
    return { state.push .value 1 with allowsKey := !state.inFlow }

/-- An anchor or a reference. -/
def named (state : Tokenizing) (token : String → Token) : Except Problem Tokenizing := do
  let state ← state.saveCandidate
  let (name, cursor) ← Tag.readName state.cursor
  return { state.pushRead (token name) cursor with allowsKey := false }

/-- A tag. -/
def tag (state : Tokenizing) : Except Problem Tokenizing := do
  let state ← state.saveCandidate
  let (token, cursor) ← Tag.read state.inFlow state.cursor
  return { state.pushRead token cursor with allowsKey := false }

/-- A block scalar, which is never a simple key. -/
def blockScalar (state : Tokenizing) (style : Style) : Except Problem Tokenizing := do
  let state ← state.dropCandidate
  let (text, cursor) ←
    Scalar.Block.read (style == .folded) state.columns.head? (state.cursor.skip 1)
  return { state.pushRead (.scalar style text) cursor with allowsKey := true }

/-- A scalar in quotes. -/
def quotedScalar (state : Tokenizing) (quote : Char) : Except Problem Tokenizing := do
  let state ← state.saveCandidate
  let (text, cursor) ← Scalar.Quoted.read quote state.cursor
  return { state.pushRead (.scalar .quoted text) cursor with allowsKey := false }

/-- A plain scalar.  After one that ends a line, a simple key may start. -/
def plainScalar (state : Tokenizing) : Except Problem Tokenizing := do
  let state ← state.saveCandidate
  let indent := match state.columns.head? with
    | some column => column + 1
    | none => 0
  let (text, endsLine, cursor) ← Scalar.Plain.read state.inFlow indent state.cursor
  return { state.pushRead (.scalar .plain text) cursor with allowsKey := endsLine }

/-! ## The whole text -/

/-- The character that marks the byte order of a text. -/
def byteOrderMark : Char := '\ufeff'

/-- Skips blanks and a comment up to the end of the line.  A tab is skipped only where it cannot be
taken for indentation.  A byte order mark is skipped at the start of any line, and takes up a
column. -/
def skipWithinLine (state : Tokenizing) : Tokenizing :=
  let skipsTabs := state.inFlow || !state.allowsKey
  let cursor :=
    if state.cursor.column == 0 && state.cursor.head == some byteOrderMark then state.cursor.skip 1
    else state.cursor
  let cursor := (cursor.takeWhile fun c => c == ' ' || (skipsTabs && c == '\t')).2
  { state with cursor := cursor.skipComment }

/-- Skips the rest of a line without tokens; in a block, a simple key may start on the next one. -/
def skipLineStep (state : Tokenizing) : Except Problem (Option Tokenizing) :=
  let state := state.skipWithinLine
  match state.cursor.lineBreak? with
  | some (_, cursor) =>
    return some { state with cursor, allowsKey := state.allowsKey || !state.inFlow }
  | none => return none

/-- Skips white space and comments in front of a token. -/
def skipSpace (state : Tokenizing) : Except Problem Tokenizing := do
  let state ← state.cursor.scan skipLineStep state
  return state.skipWithinLine

/-- Whether a plain scalar may start with `c`, when `next` follows. -/
def startsPlain (inFlow : Bool) (c : Char) (next : Option Char) : Bool :=
  !("-?:,[]\x7b\x7d#&*!|>'\"%@`".toList.contains c || isSpaceOrEnd (some c))
    || (c == '-' && !next.any isBlank)
    || (!inFlow && (c == '?' || c == ':') && !isSpaceOrEnd next)

/-- Reads the token that starts with `c`. -/
def readToken (state : Tokenizing) (c : Char) : Except Problem Tokenizing :=
  let next := state.cursor.peek 1
  let isAlone := isSpaceOrEnd next
  if state.cursor.column == 0 && c == '%' then state.directive
  else if state.cursor.atMark '-' then state.documentMark .documentStart
  else if state.cursor.atMark '.' then state.documentMark .documentEnd
  else if c == '[' then state.openFlow .flowSequenceStart
  else if c == '{' then state.openFlow .flowMappingStart
  else if c == ']' then state.closeFlow .flowSequenceEnd
  else if c == '}' then state.closeFlow .flowMappingEnd
  else if c == ',' then state.flowEntry
  else if c == '-' && isAlone then state.blockEntry
  else if c == '?' && (state.inFlow || isAlone) then state.explicitKey
  else if c == ':' && (state.inFlow || isAlone) then state.value
  else if c == '*' then state.named .reference
  else if c == '&' then state.named .anchor
  else if c == '!' then state.tag
  else if c == '|' && !state.inFlow then state.blockScalar .literal
  else if c == '>' && !state.inFlow then state.blockScalar .folded
  else if c == '\'' || c == '"' then state.quotedScalar c
  else if startsPlain state.inFlow c next then state.plainScalar
  else throw (.unexpectedCharacter c)

/-- Reads one more token, with the tokens that its indentation calls for, or the end. -/
def step (state : Tokenizing) : Except Problem (Option Tokenizing) := do
  if state.isEnded then return none
  let state ← state.skipSpace
  let state ← state.refreshCandidates
  let state := state.dedentTo (some state.cursor.column)
  match state.cursor.head with
  | none => return some (← state.finish)
  | some c => return some (← state.readToken c)

end Tokenizing

/-! ## Characters -/

/-- Whether a character may stand in a text at all. -/
def isAllowed (c : Char) : Bool :=
  let n := c.toNat
  c == '\t' || c == '\n' || c == '\r' || (0x20 ≤ n && n ≤ 0x7e) || n == 0x85
    || (0xa0 ≤ n && n ≤ 0xd7ff) || (0xe000 ≤ n && n ≤ 0xfffd) || 0x10000 ≤ n

/-- The tokens of a text.  Each step reads a character or more, except that the last one finds the
end. -/
def tokens (text : String) : Except Problem (List Token) := do
  let chars := text.toList
  if !chars.all isAllowed then throw .controlCharacter
  let state ← repeatUpTo Tokenizing.step (chars.length + 1) (Tokenizing.ofText chars)
  return state.tokens.toList

end ByteEmbed.Yaml
