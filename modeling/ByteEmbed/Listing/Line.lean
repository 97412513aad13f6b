import ByteEmbed.Digit

/-!
# ByteEmbed.Listing.Line — one line of a disassembly listing, told by its shape.

Three shapes matter: the header that opens a section (`Disassembly of section .text:`), the header
that opens a symbol (`<main>:`), and a tab followed by hexadecimal byte values.  Everything else is
passed over.  A shape is recognised by how the line starts, in this order; what a recognised line
holds is then cut out by position, whatever its characters are.
-/

namespace ByteEmbed.Listing

/-- A line of a listing. -/
inductive Line where
  /-- The header of a section, with the section's name. -/
  | sectionHeader (name : String)
  /-- The header of a symbol, with the symbol's label. -/
  | symbolHeader (label : String)
  /-- Byte values, as hexadecimal digits with the spaces between them removed. -/
  | byteRun (digits : String)
  /-- A line of no interest. -/
  | other
deriving DecidableEq, Repr

namespace Line

/-- The word that every section header starts with. -/
def sectionWord : List Char := "Disassembly".toList

/-- Whether `c` may stand in the words before a section's name. -/
def isWordChar (c : Char) : Bool := c.isAlpha || c == ' '

/-- A section header without the colon at its end, if it has one. -/
def withoutColon (header : List Char) : List Char :=
  if header.getLast? = some ':' then header.dropLast else header

/-- The section a header names: what follows its leading words, if that starts with a dot, and the
whole header behind a dot otherwise. -/
def sectionOf (header : List Char) : List Char :=
  let body := withoutColon header
  match body.dropWhile isWordChar with
  | '.' :: name => '.' :: name
  | _ => '.' :: body

/-- The label of a symbol header, from the text after its `<`: the closing `>:` is two characters,
and is dropped unseen. -/
def labelOf (text : List Char) : List Char :=
  text.dropLast.dropLast

/-- The byte digits at the start of a text: hexadecimal digits up to the first character that is
neither a digit nor a space. -/
def byteDigits (text : List Char) : List Char :=
  (text.takeWhile fun c => Digit.isHex c || c == ' ').filter (· != ' ')

/-- Tells a line by its shape. -/
def ofChars (raw : List Char) : Line :=
  if sectionWord.isPrefixOf raw then sectionHeader (String.ofList (sectionOf raw))
  else
    match raw with
    | '<' :: text => symbolHeader (String.ofList (labelOf text))
    | '\t' :: text =>
      match byteDigits text with
      | [] => other
      | digits => byteRun (String.ofList digits)
    | _ => other

/-- Tells a line by its shape. -/
def ofString (raw : String) : Line := ofChars raw.toList

end Line

end ByteEmbed.Listing
