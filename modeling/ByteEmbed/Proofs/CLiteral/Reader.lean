import ByteEmbed.Proofs.Digit

/-!
# ByteEmbed.Proofs.CLiteral.Reader — what a C compiler reads from string literals.

A reader that follows the lexical rules of C and owes nothing to the encoder or to the reader of
single bodies.  It works in two steps, as a compiler does.  First a literal is cut out of the text:
it runs from a quote to the next quote that no backslash protects.  Only then are the escapes of its
body resolved, a hexadecimal one with every digit of that body that follows and an octal one with up
to three digits.  Literals may stand next to each other, with nothing or white space between them,
and are joined as bytes.

Only a line feed ends a line here.  What else does is left to a compiler: gcc also takes a carriage
return without a line feed for a line end, and refuses a literal that has one in it raw.
-/

namespace ByteEmbed.CLiteral

/-! ## The body of one literal -/

/-- The body of a literal and the text after its closing quote, from the text after the opening
one.  A literal ends on the line on which it starts. -/
def body? : List Char → Option (List Char × List Char)
  | [] => none
  | '"' :: text => some ([], text)
  | '\\' :: c :: text => (body? text).map fun (body, rest) => ('\\' :: c :: body, rest)
  | c :: text =>
    if c = '\n' then none else (body? text).map fun (body, rest) => (c :: body, rest)

/-- The byte that a character stands for after a backslash, numeric escapes apart. -/
def simpleEscape? : Char → Option UInt8
  | '\'' => some 0x27
  | '"' => some 0x22
  | '?' => some 0x3f
  | '\\' => some 0x5c
  | 'a' => some 0x07
  | 'b' => some 0x08
  | 'f' => some 0x0c
  | 'n' => some 0x0a
  | 'r' => some 0x0d
  | 't' => some 0x09
  | 'v' => some 0x0b
  | 'e' => some 0x1b
  | _ => none

/-- The byte of a numeric escape, if it has digits and a byte holds its value. -/
def numericEscape? (radix : Nat) (digits : List Char) : Option UInt8 :=
  let n := Digit.number radix digits
  if digits ≠ [] ∧ n < 256 then some (UInt8.ofNat n) else none

/-- The byte of an ASCII character that stands for itself. -/
def plain? (c : Char) : Option UInt8 :=
  if c ≠ '\\' ∧ c.val < 128 then some c.val.toUInt8 else none

/-- The bytes that a body means, if all of it is ASCII and every escape is one of C's. -/
def meaning? : List Char → Option (List UInt8)
  | [] => some []
  | '\\' :: 'x' :: text => do
    let digits := text.takeWhile (Digit.isDigit 16)
    let byte ← numericEscape? 16 digits
    let following ← meaning? (text.drop digits.length)
    return byte :: following
  | '\\' :: c :: text => do
    if Digit.isDigit 8 c then
      let digits := (text.take 2).takeWhile (Digit.isDigit 8)
      let byte ← numericEscape? 8 (c :: digits)
      let following ← meaning? (text.drop digits.length)
      return byte :: following
    else
      let byte ← simpleEscape? c
      let following ← meaning? text
      return byte :: following
  | c :: text => do
    let byte ← plain? c
    let following ← meaning? text
    return byte :: following
termination_by text => text.length
decreasing_by all_goals simp <;> omega

theorem meaning?_plain {c : Char} (hback : c ≠ '\\') (hascii : c.val < 128) (rest : List Char) :
    meaning? (c :: rest) = (meaning? rest).map (c.val.toUInt8 :: ·) := by
  rw [meaning?, plain?, if_pos ⟨hback, hascii⟩]
  · cases meaning? rest <;> rfl
  · exact fun _ h _ => hback h
  · exact fun _ _ h _ => hback h

/-! ## Adjacent literals -/

/-- White space between two tokens. -/
def isSpace (c : Char) : Bool :=
  c = ' ' || c = '\t' || c = '\n' || c = '\x0b' || c = '\x0c' || c = '\r'

theorem length_rest_body?_le {text body rest : List Char} (h : body? text = some (body, rest)) :
    rest.length ≤ text.length := by
  induction text using body?.induct generalizing body with
  | case1 => cases h
  | case2 text =>
      cases h
      simp
  | case3 c text ih =>
      obtain ⟨⟨b, r⟩, hbody, heq⟩ := Option.map_eq_some_iff.mp h
      simp only [Prod.mk.injEq] at heq
      obtain ⟨-, rfl⟩ := heq
      have hle := ih hbody
      simp only [List.length_cons]
      omega
  | case4 text hquote hescape => simp [body?] at h
  | case5 c text hquote hescape hfeed ih =>
      simp only [body?, hfeed, if_false] at h
      obtain ⟨⟨b, r⟩, hbody, heq⟩ := Option.map_eq_some_iff.mp h
      simp only [Prod.mk.injEq] at heq
      obtain ⟨-, rfl⟩ := heq
      have hle := ih hbody
      simp only [List.length_cons]
      omega

/-- The bytes of each of the literals that a text consists of, if it consists of complete
literals. -/
def literals? : List Char → Option (List (List UInt8))
  | [] => some []
  | c :: text =>
    if isSpace c then literals? text
    else if c = '"' then
      match h : body? text with
      | none => none
      | some (body, rest) => do
        have := length_rest_body?_le h
        let bytes ← meaning? body
        let following ← literals? rest
        return bytes :: following
    else none
termination_by text => text.length

theorem literals?_space {c : Char} (h : isSpace c = true) (text : List Char) :
    literals? (c :: text) = literals? text := by
  rw [literals?, if_pos h]

end ByteEmbed.CLiteral
