import ByteEmbed.Digit

/-!
# ByteEmbed.Literal.Body — reading the body of a string literal back into bytes.

The body is read from left to right as a sequence of *items*: an ordinary ASCII character, a pair of
quotes (which joins two adjacent literals and means nothing), a short escape, a hexadecimal escape
with every digit that follows, or an octal escape of up to three digits.  Reading stops at the first
offence, and each cause of refusal carries the offset at which its item starts.  Everything before
that offset is ASCII, so counting characters and counting UTF-8 bytes give the same number.
-/

namespace ByteEmbed

/-- Why a literal body is refused; each offset is that of the first character at fault. -/
inductive BodyError where
  /-- A backslash ends the body. -/
  | danglingBackslash (offset : Nat)
  /-- A backslash is followed by a character that starts no escape. -/
  | unknownEscape (character : Char) (offset : Nat)
  /-- `\x` is not followed by a hexadecimal digit. -/
  | noHexDigits (offset : Nat)
  /-- A numeric escape is worth more than a byte holds. -/
  | tooLarge (offset : Nat)
  /-- A quote is not followed by a second one. -/
  | loneQuote (offset : Nat)
  /-- A character outside of ASCII. -/
  | notAscii (character : Char) (offset : Nat)
deriving DecidableEq, Repr

namespace BodyError

/-- The message shown for a refused body. -/
def message : BodyError → String
  | danglingBackslash offset => s!"Dangling backslash at offset {offset}"
  | unknownEscape character offset =>
    "Unknown escape sequence `\\" ++ character.toString ++ s!"` at offset {offset}"
  | noHexDigits offset => s!"Hex escape without digits at offset {offset}"
  | tooLarge offset => s!"Escape sequence out of range at offset {offset}"
  | loneQuote offset => s!"Unescaped quote at offset {offset}"
  | notAscii character offset =>
    "Non-ASCII character `" ++ character.toString ++ s!"` at offset {offset}"

end BodyError

namespace Body

/-! ## One item -/

/-- One item of a body: the bytes it means, and the text after it. -/
structure Item where
  meaning : List UInt8
  rest : List Char
deriving DecidableEq, Repr

/-- The byte a numeric escape stands for, if it is worth no more than a byte holds. -/
def byteOf? (value : UInt32) : Option UInt8 :=
  if value < 256 then some value.toUInt8 else none

/-- The byte of a short escape, if the letter after the backslash names one. -/
def shortEscape? : Char → Option UInt8
  | 'n' => some 0x0a
  | 't' => some 0x09
  | 'e' => some 0x1b
  | '\'' => some 0x27
  | '"' => some 0x22
  | '\\' => some 0x5c
  | _ => none

/-- The item of a numeric escape whose value and remaining text are known. -/
def numeric (offset : Nat) (value : UInt32) (rest : List Char) : Except BodyError Item :=
  match byteOf? value with
  | some byte => .ok ⟨[byte], rest⟩
  | none => .error (.tooLarge offset)

/-- A hexadecimal escape, from the text after `\x`: every digit that follows belongs to it. -/
def hexEscape (offset : Nat) (text : List Char) : Except BodyError Item :=
  let run := Digit.takeRun 16 text.length text
  if run.count = 0 then .error (.noHexDigits offset) else numeric offset run.value run.rest

/-- An octal escape, from its first digit and the text after it: at most two more digits belong to
it. -/
def octalEscape (offset : Nat) (first : Nat) (text : List Char) : Except BodyError Item :=
  let run := Digit.takeRun 8 2 text
  numeric offset (UInt32.ofNat first * 8 ^ run.count + run.value) run.rest

/-- An escape, from the text after its backslash. -/
def escape (offset : Nat) : List Char → Except BodyError Item
  | [] => .error (.danglingBackslash offset)
  | c :: rest =>
    match shortEscape? c with
    | some byte => .ok ⟨[byte], rest⟩
    | none =>
      if c = 'x' then hexEscape offset rest
      else
        match Digit.value? 8 c with
        | some first => octalEscape offset first rest
        | none => .error (.unknownEscape c offset)

/-- The item that starts with the character `c`, when `rest` follows it. -/
def item (offset : Nat) (c : Char) (rest : List Char) : Except BodyError Item :=
  if c = '\\' then escape offset rest
  else if c = '"' then
    match rest with
    | '"' :: rest => .ok ⟨[], rest⟩
    | _ => .error (.loneQuote offset)
  else if c.val < 128 then .ok ⟨[c.val.toUInt8], rest⟩
  else .error (.notAscii c offset)

/-! ### An item leaves no more text than it was given -/

theorem rest_numeric {offset : Nat} {value : UInt32} {text : List Char} {i : Item}
    (h : numeric offset value text = .ok i) : i.rest = text := by
  unfold numeric at h
  split at h
  · cases h; rfl
  · cases h

theorem length_rest_escape_le {offset : Nat} {text : List Char} {i : Item}
    (h : escape offset text = .ok i) : i.rest.length ≤ text.length := by
  cases text with
  | nil => cases h
  | cons c rest =>
    simp only [escape] at h
    split at h
    · cases h; simp
    · split at h
      · unfold hexEscape at h
        dsimp only at h
        split at h
        · cases h
        · rw [rest_numeric h]
          exact Nat.le_succ_of_le (Digit.length_takeRun_rest _ _ _)
      · split at h
        · unfold octalEscape at h
          dsimp only at h
          rw [rest_numeric h]
          exact Nat.le_succ_of_le (Digit.length_takeRun_rest _ _ _)
        · cases h

theorem length_rest_item_le {offset : Nat} {c : Char} {text : List Char} {i : Item}
    (h : item offset c text = .ok i) : i.rest.length ≤ text.length := by
  unfold item at h
  split at h
  · exact length_rest_escape_le h
  · split at h
    · split at h
      · cases h; simp
      · cases h
    · split at h
      · cases h; exact Nat.le_refl _
      · cases h

/-! ## The whole body -/

/-- The bytes of a text whose first character stands at `offset`. -/
def bytesFrom (offset : Nat) : List Char → Except BodyError (List UInt8)
  | [] => .ok []
  | c :: text =>
    match h : item offset c text with
    | .error e => .error e
    | .ok i => do
      have := length_rest_item_le h
      let following ← bytesFrom (offset + (text.length + 1 - i.rest.length)) i.rest
      return i.meaning ++ following
termination_by text => text.length

/-- The bytes that the body of a string literal spells. -/
def read (body : String) : Except BodyError (List UInt8) :=
  bytesFrom 0 body.toList

end Body

end ByteEmbed
