import ByteEmbed.Digit
import ByteEmbed.Text.Utf8
import ByteEmbed.Yaml.Cursor
import ByteEmbed.Yaml.Problem
import ByteEmbed.Yaml.Token

/-!
# ByteEmbed.Yaml.Tag — tags, anchors, references and directives.

A tag is written as a handle and a suffix; directives declare what a handle stands for.  Suffixes
may hold percent-encoded octets, so they are kept as bytes until the whole tag is known.
-/

namespace ByteEmbed.Yaml.Tag

/-! ## Handles and suffixes -/

/-- Reads the handle of a tag, from its exclamation mark: the mark alone, or a name between two
marks.  A name without a second mark is read as well, and is then the start of a suffix. -/
def readHandle (cursor : Cursor) : Except Problem (List Char × Cursor) :=
  if cursor.head == some '!' then
    let (name, cursor) := (cursor.skip 1).takeWhile isNameChar
    if cursor.head == some '!' then return ('!' :: name ++ ['!'], cursor.skip 1)
    else return ('!' :: name, cursor)
  else throw .badTag

/-- Whether `c` may stand in a suffix; commas and brackets may not where they could be punctuation
of a flow collection. -/
def isSuffixChar (isVerbatim : Bool) (c : Char) : Bool :=
  isNameChar c || ";/?:@&=+$.!~*'()".toList.contains c
    || (isVerbatim && (c == ',' || c == '[' || c == ']'))

/-- Reads one percent-encoded octet. -/
def octet? (text : List Char) : Option UInt8 :=
  match text with
  | '%' :: high :: low :: _ => do
    let h ← Digit.value? 16 high
    let l ← Digit.value? 16 low
    return UInt8.ofNat (16 * h + l)
  | _ => none

/-- How many octets a character has whose first octet is `lead`. -/
def octetCount? (lead : UInt8) : Option Nat :=
  if lead < 0x80 then some 1
  else if 0xc0 ≤ lead ∧ lead < 0xe0 then some 2
  else if 0xe0 ≤ lead ∧ lead < 0xf0 then some 3
  else if 0xf0 ≤ lead ∧ lead < 0xf8 then some 4
  else none

/-- Reads `n` percent-encoded continuation octets. -/
def readContinuation (cursor : Cursor) : Nat → Except Problem (List UInt8 × Cursor)
  | 0 => return ([], cursor)
  | n + 1 =>
    match octet? cursor.rest with
    | some octet =>
      if 0x80 ≤ octet ∧ octet < 0xc0 then do
        let (octets, cursor) ← readContinuation (cursor.skip 3) n
        return (octet :: octets, cursor)
      else throw .badTag
    | none => throw .badTag

/-- Reads a percent-encoded character. -/
def readEncoded (cursor : Cursor) : Except Problem (List UInt8 × Cursor) := do
  let some lead := octet? cursor.rest | throw .badTag
  let some count := octetCount? lead | throw .badTag
  let (octets, cursor) ← readContinuation (cursor.skip 3) (count - 1)
  return (lead :: octets, cursor)

/-- A suffix as far as it was read. -/
structure Suffix where
  bytes : List UInt8
  cursor : Cursor

/-- Reads one more character of a suffix. -/
def suffixStep (isVerbatim : Bool) (suffix : Suffix) : Except Problem (Option Suffix) :=
  match suffix.cursor.head with
  | none => return none
  | some c =>
    if c == '%' then do
      let (bytes, cursor) ← readEncoded suffix.cursor
      return some ⟨suffix.bytes ++ bytes, cursor⟩
    else if isSuffixChar isVerbatim c then
      return some ⟨suffix.bytes ++ [c.toUInt8], suffix.cursor.skip 1⟩
    else return none

/-- Reads a suffix; `read` is what of it has been read as a part of the handle. -/
def readSuffix (isVerbatim : Bool) (read : List Char) (cursor : Cursor) :
    Except Problem (List UInt8 × Cursor) := do
  let opened : Suffix := ⟨read.map Char.toUInt8, cursor⟩
  let suffix ← cursor.scan (suffixStep isVerbatim) opened
  return (suffix.bytes, suffix.cursor)

/-- What a suffix says: an encoded zero octet ends it. -/
def untilZero (octets : List UInt8) : List UInt8 := octets.takeWhile (· != 0)

/-- Whether a handle is a name between two marks. -/
def isNamedHandle (handle : List Char) : Bool :=
  2 ≤ handle.length && handle.getLast? == some '!'

/-! ## Tags -/

/-- Reads a tag between angle brackets, which is taken as it is. -/
def readVerbatim (cursor : Cursor) : Except Problem (Token × Cursor) := do
  let (suffix, cursor) ← readSuffix true [] (cursor.skip 2)
  if suffix.isEmpty || cursor.head != some '>' then throw .badTag
  return (.tag "" (untilZero suffix), cursor.skip 1)

/-- Reads a tag with a handle.  The mark alone is a tag of its own, which no handle stands for. -/
def readShorthand (cursor : Cursor) : Except Problem (Token × Cursor) := do
  let (handle, cursor) ← readHandle cursor
  if isNamedHandle handle then
    let (suffix, cursor) ← readSuffix false [] cursor
    if suffix.isEmpty then throw .badTag
    return (.tag (String.ofList handle) (untilZero suffix), cursor)
  else
    let (suffix, cursor) ← readSuffix false handle.tail cursor
    if (untilZero suffix).isEmpty then return (.tag "" ['!'.toUInt8], cursor)
    else return (.tag "!" (untilZero suffix), cursor)

/-- Reads a tag. -/
def read (inFlow : Bool) (cursor : Cursor) : Except Problem (Token × Cursor) := do
  let (token, cursor) ←
    if cursor.peek 1 == some '<' then readVerbatim cursor else readShorthand cursor
  if isSpaceOrEnd cursor.head || (inFlow && cursor.head == some ',') then return (token, cursor)
  else throw .badTag

/-! ## Anchors and references -/

/-- Reads the name of an anchor or of a reference, from its indicator. -/
def readName (cursor : Cursor) : Except Problem (String × Cursor) :=
  let (name, cursor) := (cursor.skip 1).takeWhile isNameChar
  let isEnded :=
    isSpaceOrEnd cursor.head || cursor.head.any ("?:,]\x7d%@`".toList.contains ·)
  if name.isEmpty || !isEnded then throw .badAnchor
  else return (String.ofList name, cursor)

/-! ## Directives -/

/-- Reads a decimal number of one to nine digits. -/
def readNumber (cursor : Cursor) : Except Problem (Nat × Cursor) :=
  let (digits, cursor) := cursor.takeWhile Char.isDigit
  if digits.isEmpty || 9 < digits.length then throw .badDirective
  else return ((Digit.valueOf 10 digits).toNat, cursor)

/-- Reads the version of a version directive. -/
def readVersion (cursor : Cursor) : Except Problem (Token × Cursor) := do
  let (major, cursor) ← readNumber cursor.skipBlanks
  if cursor.head != some '.' then throw .badDirective
  let (minor, cursor) ← readNumber (cursor.skip 1)
  return (.versionDirective major minor, cursor)

/-- Reads the handle of a tag directive and what it stands for. -/
def readDeclaration (cursor : Cursor) : Except Problem (Token × Cursor) := do
  let (handle, cursor) ← readHandle cursor.skipBlanks
  if handle != ['!'] && !isNamedHandle handle then throw .badDirective
  if !cursor.head.any isBlank then throw .badDirective
  let (replacement, cursor) ← readSuffix true [] cursor.skipBlanks
  if replacement.isEmpty || !isSpaceOrEnd cursor.head then throw .badDirective
  return (.tagDirective (String.ofList handle) (untilZero replacement), cursor)

/-- Reads a directive, from its percent sign to the end of its line. -/
def readDirective (cursor : Cursor) : Except Problem (Token × Cursor) := do
  let (name, cursor) := (cursor.skip 1).takeWhile isNameChar
  if name.isEmpty || !isSpaceOrEnd cursor.head then throw .badDirective
  let (token, cursor) ← match String.ofList name with
    | "YAML" => readVersion cursor
    | "TAG" => readDeclaration cursor
    | _ => throw .badDirective
  let cursor := cursor.skipBlanks.skipComment
  if isLineEnd cursor.head then return (token, cursor.skipLineBreak) else throw .badDirective

end ByteEmbed.Yaml.Tag
