import ByteEmbed.Hex

/-!
# ByteEmbed.Literal.Spelling — how one byte is spelled inside a C string literal.

A byte has exactly one spelling: itself, a backslash and itself, a short escape, or two hexadecimal
digits after `\x`.  The two numeric escapes are open-ended for a C reader (`\x` takes every
hexadecimal digit that follows, `\0` up to two more octal ones), so a spelling may *swallow* the one
after it; `swallows` says exactly when, and `marker` is what is written between the two to stop it.
-/

namespace ByteEmbed

/-- The spelling of one byte inside a C string literal. -/
inductive Spelling where
  /-- A printable character, written as it is. -/
  | plain (c : Char)
  /-- A printable character that needs a backslash: either quote, or the backslash. -/
  | quoted (c : Char)
  /-- A short escape: `\n`, `\t`, `\e`, `\0`. -/
  | named (c : Char)
  /-- `\x` and two hexadecimal digits. -/
  | hex (byte : UInt8)
deriving DecidableEq, Repr

namespace Spelling

/-- The spelling of a byte.  A semicolon is printable and yet never written as itself. -/
def ofByte (byte : UInt8) : Spelling :=
  let c := Char.ofUInt8 byte
  if c = ';' then hex byte
  else if c = '\'' ∨ c = '"' ∨ c = '\\' then quoted c
  else if ' ' ≤ c ∧ c ≤ '~' then plain c
  else if c = '\n' then named 'n'
  else if c = '\t' then named 't'
  else if c = '\x1b' then named 'e'
  else if c = '\x00' then named '0'
  else hex byte

/-- The text of a spelling. -/
def text : Spelling → String
  | plain c => String.singleton c
  | quoted c | named c => String.ofList ['\\', c]
  | hex byte => String.ofList ('\\' :: 'x' :: Hex.pair byte)

/-- How many characters the text of a spelling has. -/
def width : Spelling → Nat
  | plain _ => 1
  | quoted _ | named _ => 2
  | hex _ => 4

/-- Whether `next`, written right after the spelling, would be read as a part of it. -/
def swallows : Spelling → Spelling → Bool
  | hex _, plain c => Digit.isHex c
  | named '0', plain c => Digit.isDigit 8 c
  | _, _ => false

/-- Two quotes: they close one literal and open the next, and so end an escape early. -/
def marker : String := "\"\""

end Spelling

end ByteEmbed
