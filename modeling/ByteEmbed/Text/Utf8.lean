/-!
# ByteEmbed.Text.Utf8 — bytes read as UTF-8, strictly or with replacements.

The well-formed sequences are those of the Unicode standard's table: the first byte fixes how many
continuation bytes follow and the range of the first of them, which rules out overlong forms,
surrogates and values past the last code point.  Bytes are read into *parts*, each a character or an
ill-formed part; an ill-formed part is the longest prefix of some well-formed sequence, or one
byte that starts none.  A strict reading refuses every ill-formed part, a lossy one puts U+FFFD for
each.
-/

namespace ByteEmbed.Text.Utf8

/-- What the first byte of a sequence says of the rest: the bits it contributes, how many
continuation bytes are owed, and the range of the first of them. -/
structure Lead where
  bits : Nat
  owed : Nat
  low : UInt8
  high : UInt8

/-- The meaning of a first byte, if some well-formed sequence starts with it. -/
def lead? (byte : UInt8) : Option Lead :=
  let n := byte.toNat
  if n < 0x80 then some ⟨n, 0, 0x80, 0xbf⟩
  else if n < 0xc2 then none
  else if n < 0xe0 then some ⟨n % 32, 1, 0x80, 0xbf⟩
  else if n = 0xe0 then some ⟨n % 16, 2, 0xa0, 0xbf⟩
  else if n = 0xed then some ⟨n % 16, 2, 0x80, 0x9f⟩
  else if n < 0xf0 then some ⟨n % 16, 2, 0x80, 0xbf⟩
  else if n = 0xf0 then some ⟨n % 8, 3, 0x90, 0xbf⟩
  else if n < 0xf4 then some ⟨n % 8, 3, 0x80, 0xbf⟩
  else if n = 0xf4 then some ⟨n % 8, 3, 0x80, 0x8f⟩
  else none

/-- Reads the continuation bytes that are owed: the code point, or none where a byte is out of
range, and the bytes not read. -/
def continuation (bits : Nat) (low high : UInt8) : Nat → List UInt8 → Option Nat × List UInt8
  | 0, bytes => (some bits, bytes)
  | _ + 1, [] => (none, [])
  | owed + 1, byte :: bytes =>
    if low ≤ byte ∧ byte ≤ high then
      continuation (bits * 64 + byte.toNat % 64) 0x80 0xbf owed bytes
    else (none, byte :: bytes)

theorem length_continuation_le (bits : Nat) (low high : UInt8) (owed : Nat) (bytes : List UInt8) :
    (continuation bits low high owed bytes).2.length ≤ bytes.length := by
  induction owed generalizing bits low high bytes with
  | zero => simp [continuation]
  | succ owed ih =>
    cases bytes with
    | nil => simp [continuation]
    | cons byte bytes =>
      simp only [continuation]
      split
      · exact Nat.le_succ_of_le (ih _ _ _ _)
      · exact Nat.le_refl _

/-- The parts of a byte sequence: a character each, or none for an ill-formed part. -/
def parts : List UInt8 → List (Option Char)
  | [] => []
  | byte :: bytes =>
    match lead? byte with
    | none => none :: parts bytes
    | some lead =>
      let read := continuation lead.bits lead.low lead.high lead.owed bytes
      read.1.map Char.ofNat :: parts read.2
termination_by bytes => bytes.length
decreasing_by
  · exact Nat.lt_succ_self _
  · exact Nat.lt_succ_of_le (length_continuation_le _ _ _ _ _)

/-- The text of a byte sequence that is well-formed throughout. -/
def decode? (bytes : List UInt8) : Option String :=
  ((parts bytes).mapM id).map String.ofList

/-- The text of a byte sequence, with U+FFFD for every ill-formed part. -/
def decodeLossy (bytes : List UInt8) : String :=
  String.ofList ((parts bytes).map (·.getD '\ufffd'))

/-- The bytes of a text. -/
def encode (text : String) : List UInt8 :=
  text.toUTF8.data.toList

end ByteEmbed.Text.Utf8
