import ByteEmbed.Hex
import ByteEmbed.Naming.Identifier

/-!
# ByteEmbed.Symbol — a named run of bytes of one section.
-/

namespace ByteEmbed

/-- A run of bytes: the section it stands in, the name it is declared under, the label that this
name comes from, and the bytes. -/
structure Symbol where
  sectionName : String
  name : String
  realName : String
  bytes : List UInt8
deriving DecidableEq, Repr

/-- Byte data that is not a whole number of bytes: the label and the section it belongs to, and its
length in UTF-8 bytes. -/
structure MalformedBytes where
  symbol : String
  sectionName : String
  length : Nat
deriving DecidableEq, Repr

/-- The message shown for malformed byte data. -/
def MalformedBytes.message (e : MalformedBytes) : String :=
  "Malformed byte data in `" ++ e.symbol ++ "` (" ++ e.sectionName ++ s!"): {e.length} hex digits"

namespace Symbol

/-- The symbol of a section and a name whose bytes are spelled by `digits`. -/
def ofHex (sectionName : String) (name : Name) (digits : String) :
    Except MalformedBytes Symbol :=
  match Hex.decode? digits with
  | some bytes => .ok { sectionName, name := name.display, realName := name.real, bytes }
  | none => .error { symbol := name.real, sectionName, length := digits.utf8ByteSize }

/-- Whether the symbol is declared under another name than its label. -/
def isRenamed (symbol : Symbol) : Bool := symbol.name != symbol.realName

end Symbol

end ByteEmbed
