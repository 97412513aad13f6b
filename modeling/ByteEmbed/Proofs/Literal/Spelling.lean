import ByteEmbed.Literal.Spelling
import ByteEmbed.Proofs.Digit

/-!
# ByteEmbed.Proofs.Literal.Spelling — the shapes that the spelling of a byte can take.

`Shape byte spelling` lists the shapes once, with what a reader needs to know of each: the character
written, and the byte it stands for.  Every byte has one (`shape_ofByte`), so a fact about spellings
is a case for each shape.  `Stops` says of a text that it may stand right after a spelling: the
spelling ends before it.
-/

namespace ByteEmbed.Spelling

/-! ## Shapes -/

/-- The characters that stand for a byte after a backslash, with the byte. -/
def shortForms : List (Char × UInt8) :=
  [('\'', 0x27), ('"', 0x22), ('\\', 0x5c), ('n', 0x0a), ('t', 0x09), ('e', 0x1b)]

/-- The shapes of the spelling of `byte`. -/
inductive Shape (byte : UInt8) : Spelling → Prop
  | plain {c : Char} (value : c.val.toUInt8 = byte) (low : ' ' ≤ c) (high : c ≤ '~')
      (semicolon : c ≠ ';') (quote : c ≠ '"') (backslash : c ≠ '\\') : Shape byte (plain c)
  | quoted {c : Char} (form : (c, byte) ∈ shortForms) : Shape byte (quoted c)
  | named {c : Char} (form : (c, byte) ∈ shortForms) : Shape byte (named c)
  | zero (value : byte = 0) : Shape byte (named '0')
  | hex : Shape byte (hex byte)

theorem val_ofUInt8 (byte : UInt8) : (Char.ofUInt8 byte).val.toUInt8 = byte := by
  show byte.toUInt32.toUInt8 = byte
  exact UInt8.toUInt8_toUInt32 byte

theorem eq_of_ofUInt8_eq {byte : UInt8} {c : Char} (h : Char.ofUInt8 byte = c) :
    byte = c.val.toUInt8 := by
  rw [← h, val_ofUInt8]

theorem shape_ofByte (byte : UInt8) : Shape byte (ofByte byte) := by
  -- the splits follow the order in which the spellings are tried
  unfold ofByte
  dsimp only
  split
  · exact .hex
  · rename_i hsemicolon
    split
    · rename_i hquote
      rcases hquote with h | h | h <;>
        · rw [h, eq_of_ofUInt8_eq h]
          exact .quoted (by decide)
    · rename_i hquote
      obtain ⟨-, hdouble, hback⟩ : ¬_ ∧ ¬_ ∧ ¬_ := by simpa only [not_or] using hquote
      split
      · rename_i hrange
        exact .plain (val_ofUInt8 byte) hrange.1 hrange.2 hsemicolon hdouble hback
      · split
        · rename_i h
          rw [eq_of_ofUInt8_eq h]
          exact .named (by decide)
        · split
          · rename_i h
            rw [eq_of_ofUInt8_eq h]
            exact .named (by decide)
          · split
            · rename_i h
              rw [eq_of_ofUInt8_eq h]
              exact .named (by decide)
            · split
              · rename_i h
                exact .zero (eq_of_ofUInt8_eq h)
              · exact .hex

/-! ## Texts -/

@[simp]
theorem toList_text_plain (c : Char) : (plain c).text.toList = [c] := by
  simp [text]

@[simp]
theorem toList_text_quoted (c : Char) : (quoted c).text.toList = ['\\', c] := by
  simp [text]

@[simp]
theorem toList_text_named (c : Char) : (named c).text.toList = ['\\', c] := by
  simp [text]

@[simp]
theorem toList_text_hex (byte : UInt8) :
    (hex byte).text.toList = '\\' :: 'x' :: Hex.pair byte := by
  simp [text]

@[simp]
theorem toList_marker : marker.toList = ['"', '"'] := rfl

theorem text_ne_empty (spelling : Spelling) : spelling.text ≠ "" := by
  intro h
  have hnil : spelling.text.toList = [] := by rw [h]; rfl
  cases spelling <;> simp at hnil

/-- How much room a spelling takes. -/
theorem length_text (spelling : Spelling) : spelling.text.length = spelling.width := by
  rw [← String.length_toList]
  cases spelling <;> simp [width, Hex.pair]

theorem width_le (spelling : Spelling) : spelling.width ≤ 4 := by
  cases spelling <;> simp [width]

/-- A spelling of a byte is printable ASCII without semicolons. -/
theorem printable_text_ofByte {byte : UInt8} {c : Char} (h : c ∈ (ofByte byte).text.toList) :
    ' ' ≤ c ∧ c ≤ '~' ∧ c ≠ ';' := by
  have hshape := shape_ofByte byte
  generalize ofByte byte = spelling at hshape h
  have hforms : ∀ form ∈ shortForms, ' ' ≤ form.1 ∧ form.1 ≤ '~' ∧ form.1 ≠ ';' := by decide
  have hlower : ∀ v < 16, ' ' ≤ Digit.lower v ∧ Digit.lower v ≤ '~' ∧ Digit.lower v ≠ ';' := by
    decide
  cases hshape with
  | plain value low high semicolon quote backslash =>
      obtain rfl : c = _ := by simpa using h
      exact ⟨low, high, semicolon⟩
  | quoted form =>
      simp only [toList_text_quoted, List.mem_cons, List.not_mem_nil, or_false] at h
      rcases h with rfl | rfl
      · decide
      · exact hforms _ form
  | named form =>
      simp only [toList_text_named, List.mem_cons, List.not_mem_nil, or_false] at h
      rcases h with rfl | rfl
      · decide
      · exact hforms _ form
  | zero value =>
      simp only [toList_text_named, List.mem_cons, List.not_mem_nil, or_false] at h
      rcases h with rfl | rfl <;> decide
  | hex =>
      have hbyte := byte.toNat_lt
      simp only [toList_text_hex, Hex.pair, List.mem_cons, List.not_mem_nil, or_false] at h
      rcases h with rfl | rfl | rfl | rfl
      · decide
      · decide
      · exact hlower _ (by omega)
      · exact hlower _ (by omega)

/-! ## What may follow a spelling -/

/-- Only hexadecimal digits are ever swallowed. -/
theorem isHex_of_swallows {spelling : Spelling} {c : Char}
    (h : spelling.swallows (plain c) = true) : Digit.isHex c = true := by
  unfold swallows at h
  split at h
  · rename_i heq
    cases heq
    exact h
  · rename_i heq
    cases heq
    exact Digit.isDigit_mono (by decide) h
  · cases h

theorem not_swallows {c : Char} (h : Digit.isHex c = false) (spelling : Spelling) :
    spelling.swallows (plain c) = false := by
  cases hswallows : spelling.swallows (plain c) with
  | false => rfl
  | true => rw [isHex_of_swallows hswallows] at h; cases h

/-- `rest` does not start with a character that the spelling would swallow. -/
def Stops (spelling : Spelling) (rest : List Char) : Prop :=
  ∀ c ∈ rest.head?, spelling.swallows (plain c) = false

theorem Stops.nil (spelling : Spelling) : Stops spelling [] := by
  intro c hc
  cases hc

/-- A quote stops every spelling: that is what a marker is for. -/
theorem Stops.quote (spelling : Spelling) (rest : List Char) : Stops spelling ('"' :: rest) := by
  rintro c ⟨rfl⟩
  exact not_swallows (by decide) spelling

/-- A spelling that is not swallowed stops the one before it. -/
theorem Stops.text {spelling next : Spelling} (h : spelling.swallows next = false)
    (rest : List Char) : Stops spelling (next.text.toList ++ rest) := by
  intro c hc
  cases next with
  | plain d =>
      obtain rfl : d = c := by simpa using hc
      exact h
  | _ =>
      obtain rfl : '\\' = c := by simpa using hc
      exact not_swallows (by decide) spelling

theorem not_swallows_of_stops {spelling next : Spelling} {rest : List Char}
    (h : Stops spelling (next.text.toList ++ rest)) : spelling.swallows next = false := by
  cases next with
  | plain c =>
      apply h
      simp
  | _ => simp [swallows]

/-- A short escape has its length, and no text continues it. -/
theorem stops_named {c : Char} {byte : UInt8} (form : (c, byte) ∈ shortForms)
    (rest : List Char) : Stops (named c) rest := by
  have hzero : c ≠ '0' := by
    rintro rfl
    simp [shortForms] at form
  intro d _
  unfold swallows
  split
  · rename_i hhex _
    cases hhex
  · rename_i hnamed _
    exact absurd (named.inj hnamed) hzero
  · rfl

theorem Stops.noneAhead_hex {byte : UInt8} {rest : List Char} (h : Stops (hex byte) rest) :
    Digit.NoneAhead 16 rest :=
  h

theorem Stops.noneAhead_zero {rest : List Char} (h : Stops (named '0') rest) :
    Digit.NoneAhead 8 rest :=
  h

/-- Only a plain spelling starts with a digit, and it is nothing but that digit. -/
theorem eq_plain_of_isDigit {spelling : Spelling} {d : Char} {rest text : List Char}
    (h : spelling.text.toList ++ rest = d :: text) (hd : Digit.isDigit 16 d = true) :
    spelling = plain d ∧ rest = text := by
  cases spelling with
  | plain c =>
      obtain ⟨rfl, rfl⟩ : c = d ∧ rest = text := by simpa using h
      exact ⟨rfl, rfl⟩
  | _ =>
      obtain rfl : '\\' = d := by
        have hhead := congrArg List.head? h
        simpa using hhead
      exact absurd hd (by decide)

/-! ## Pairs of digits -/

theorem isHex_of_mem_pair {byte : UInt8} {c : Char} (h : c ∈ Hex.pair byte) :
    Digit.isDigit 16 c = true := by
  have hbyte := byte.toNat_lt
  simp only [Hex.pair, List.mem_cons, List.not_mem_nil, or_false] at h
  rcases h with rfl | rfl
  · exact Digit.isHex_lower (by omega)
  · exact Digit.isHex_lower (by omega)

theorem number_pair (byte : UInt8) : Digit.number 16 (Hex.pair byte) = byte.toNat := by
  have hbyte := byte.toNat_lt
  simp only [Digit.number, Hex.pair, List.foldl_cons, List.foldl_nil]
  rw [Digit.value?_lower (by omega), Digit.value?_lower (by omega)]
  simp only [Option.getD_some]
  omega

end ByteEmbed.Spelling
