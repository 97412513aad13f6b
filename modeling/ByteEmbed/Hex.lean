import ByteEmbed.Digit

/-!
# ByteEmbed.Hex — bytes as pairs of hexadecimal digits.

`encode` writes two lower-case digits to a byte; `decode?` reads digits of either case and refuses a
text that has any other character or an odd number of them.
-/

namespace ByteEmbed.Hex

/-- The two lower-case digits of a byte, the high one first. -/
def pair (byte : UInt8) : List Char :=
  [Digit.lower (byte.toNat / 16), Digit.lower (byte.toNat % 16)]

/-- Bytes as lower-case digits, two to a byte. -/
def encode (bytes : List UInt8) : String :=
  String.ofList (bytes.flatMap pair)

/-- The byte of two digits. -/
def byte? (high low : Char) : Option UInt8 := do
  let h ← Digit.value? 16 high
  let l ← Digit.value? 16 low
  return UInt8.ofNat (16 * h + l)

/-- The bytes of a text of digits, two to a byte. -/
def decodeChars? : List Char → Option (List UInt8)
  | [] => some []
  | [_] => none
  | high :: low :: rest => do
    let byte ← byte? high low
    let bytes ← decodeChars? rest
    return byte :: bytes

/-- The bytes that `text` spells, if it is an even number of hexadecimal digits and nothing else. -/
def decode? (text : String) : Option (List UInt8) :=
  decodeChars? text.toList

end ByteEmbed.Hex
