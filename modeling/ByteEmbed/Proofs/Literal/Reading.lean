import ByteEmbed.Literal.Body
import ByteEmbed.Proofs.Digit
import ByteEmbed.Proofs.Literal.Spelling

/-!
# ByteEmbed.Proofs.Literal.Reading — what each kind of item of a literal body is read as.

One equation for each kind of item, in terms of the number its digits spell and of the character
after it, and none that opens the reader further than that.  `Reads` is the part of a result that
no offset changes: a text that is read as some bytes wherever it stands.
-/

namespace ByteEmbed.Body

/-! ## Items -/

theorem item_plain (offset : Nat) {c : Char} (hascii : c.val < 128) (hback : c ≠ '\\')
    (hquote : c ≠ '"') (rest : List Char) :
    item offset c rest = .ok ⟨[c.val.toUInt8], rest⟩ := by
  simp [item, hback, hquote, hascii]

/-- Two quotes mean nothing, and nothing that follows can change that. -/
theorem item_marker (offset : Nat) (rest : List Char) :
    item offset '"' ('"' :: rest) = .ok ⟨[], rest⟩ := rfl

/-- The short escapes are those that spellings use. -/
theorem shortEscape?_eq_some_iff {c : Char} {byte : UInt8} :
    shortEscape? c = some byte ↔ (c, byte) ∈ Spelling.shortForms := by
  constructor
  · intro h
    unfold shortEscape? at h
    split at h <;> cases h <;> decide
  · intro h
    simp only [Spelling.shortForms, List.mem_cons, List.not_mem_nil, or_false, Prod.mk.injEq] at h
    rcases h with ⟨rfl, rfl⟩ | ⟨rfl, rfl⟩ | ⟨rfl, rfl⟩ | ⟨rfl, rfl⟩ | ⟨rfl, rfl⟩ | ⟨rfl, rfl⟩
      <;> rfl

theorem item_short (offset : Nat) {c : Char} {byte : UInt8} (h : shortEscape? c = some byte)
    (rest : List Char) : item offset '\\' (c :: rest) = .ok ⟨[byte], rest⟩ := by
  simp [item, escape, h]

/-- A numeric escape is worth the number behind its saturated value, if a byte holds that. -/
theorem numeric_eq (offset : Nat) {value : UInt32} {n : Nat}
    (h : value.toNat = min n Digit.greatest) (rest : List Char) :
    numeric offset value rest
      = if n < 256 then .ok ⟨[UInt8.ofNat n], rest⟩ else .error (.tooLarge offset) := by
  -- the bound is far below the greatest word, so saturating hides nothing from the test
  have hgreatest : Digit.greatest = 4294967295 := rfl
  have hlt : value < 256 ↔ n < 256 := by
    rw [UInt32.lt_iff_toNat_lt, h]
    simp only [UInt32.reduceToNat]
    omega
  by_cases hn : n < 256
  · have hvalue : value.toUInt8 = UInt8.ofNat n := by
      have hnat : value.toNat = n := by omega
      rw [← hnat]
      exact UInt8.toNat_inj.mp (by simp)
    simp [numeric, byteOf?, hlt.mpr hn, hn, hvalue]
  · have hnot : ¬ value < 256 := fun hvalue => hn (hlt.mp hvalue)
    simp [numeric, byteOf?, hnot, hn]

theorem shortEscape?_eq_none {c : Char} (h : Digit.isDigit 8 c = true) :
    shortEscape? c = none := by
  unfold shortEscape?
  split <;> first | rfl | (revert h; decide)

/-- A hexadecimal escape is worth the number of all digits that follow. -/
theorem item_hex (offset : Nat) (digits rest : List Char) (hne : digits ≠ [])
    (hdigits : ∀ c ∈ digits, Digit.isDigit 16 c = true) (hrest : Digit.NoneAhead 16 rest) :
    item offset '\\' ('x' :: (digits ++ rest))
      = if Digit.number 16 digits < 256 then
          .ok ⟨[UInt8.ofNat (Digit.number 16 digits)], rest⟩
        else .error (.tooLarge offset) := by
  -- the limit is the whole text, so a run ends only where its digits end
  have hrun := Digit.takeRun_append (digits ++ rest).length hdigits (by simp) (Or.inr hrest)
  have hcount : digits.length ≠ 0 := by simpa using hne
  have hvalue : (Digit.valueOf 16 digits).toNat = min (Digit.number 16 digits) Digit.greatest :=
    Digit.toNat_valueOf (by decide) digits
  have hitem : item offset '\\' ('x' :: (digits ++ rest)) = hexEscape offset (digits ++ rest) :=
    rfl
  rw [hitem, hexEscape, hrun, if_neg hcount]
  exact numeric_eq offset hvalue rest

/-- The digits of an octal escape are worth less than a word holds. -/
theorem octal_lt {first : Nat} (hfirst : first < 8) {digits : List Char}
    (hdigits : ∀ d ∈ digits, Digit.isDigit 8 d = true) (hlength : digits.length ≤ 2) :
    first * 8 ^ digits.length + Digit.number 8 digits < 512 := by
  have hnumber := Digit.number_lt hdigits
  have hpow : 8 ^ digits.length ≤ 8 ^ 2 := Nat.pow_le_pow_right (by decide) hlength
  have hmul : first * 8 ^ digits.length ≤ 7 * 8 ^ digits.length :=
    Nat.mul_le_mul_right _ (Nat.le_of_lt_succ hfirst)
  omega

/-- Two octal digits are worth their number, with no word to bound it. -/
theorem toNat_valueOf_octal {digits : List Char}
    (hdigits : ∀ d ∈ digits, Digit.isDigit 8 d = true) (hlength : digits.length ≤ 2) :
    (Digit.valueOf 8 digits).toNat = Digit.number 8 digits := by
  have hsum := octal_lt (by decide : 0 < 8) hdigits hlength
  have hgreatest : Digit.greatest = 4294967295 := rfl
  rw [Digit.toNat_valueOf (by decide)]
  omega

/-- The digits of an octal escape are put together as they are without a word around them: neither
the power nor the product nor the sum leaves it, for there are three digits at most. -/
theorem toNat_octal {first : Nat} (hfirst : first < 8) {digits : List Char}
    (hdigits : ∀ d ∈ digits, Digit.isDigit 8 d = true) (hlength : digits.length ≤ 2) :
    (UInt32.ofNat first * 8 ^ digits.length + Digit.valueOf 8 digits).toNat
      = first * 8 ^ digits.length + Digit.number 8 digits := by
  have hsum := octal_lt hfirst hdigits hlength
  have hpow : ((8 : UInt32) ^ digits.length).toNat = 8 ^ digits.length := by
    have hcount : digits.length = 0 ∨ digits.length = 1 ∨ digits.length = 2 := by omega
    rcases hcount with h | h | h <;> rw [h] <;> rfl
  have hword : first % 2 ^ 32 = first := Nat.mod_eq_of_lt (by omega)
  rw [UInt32.toNat_add, UInt32.toNat_mul, UInt32.toNat_ofNat', hpow,
    toNat_valueOf_octal hdigits hlength]
  rw [hword, Nat.mod_add_mod, Nat.mod_eq_of_lt (by omega)]

/-- An octal escape is worth the number of its first digit and of up to two that follow. -/
theorem item_octal (offset : Nat) (c : Char) (digits rest : List Char)
    (hc : Digit.isDigit 8 c = true) (hdigits : ∀ d ∈ digits, Digit.isDigit 8 d = true)
    (hlength : digits.length ≤ 2) (hrest : digits.length = 2 ∨ Digit.NoneAhead 8 rest) :
    item offset '\\' (c :: (digits ++ rest))
      = if Digit.number 8 (c :: digits) < 256 then
          .ok ⟨[UInt8.ofNat (Digit.number 8 (c :: digits))], rest⟩
        else .error (.tooLarge offset) := by
  obtain ⟨first, hfirst⟩ := Option.isSome_iff_exists.mp hc
  have hfirst_lt := Digit.lt_of_value?_eq_some hfirst
  have hrun := Digit.takeRun_append 2 hdigits hlength hrest
  have hx : c ≠ 'x' := by
    rintro rfl
    revert hc
    decide
  have hitem : item offset '\\' (c :: (digits ++ rest))
      = octalEscape offset first (digits ++ rest) := by
    simp [item, escape, shortEscape?_eq_none hc, hx, hfirst]
  have hgreatest : Digit.greatest = 4294967295 := rfl
  have hsum := octal_lt hfirst_lt hdigits hlength
  rw [hitem, octalEscape, hrun]
  refine numeric_eq offset ?_ rest
  rw [toNat_octal hfirst_lt hdigits hlength, Digit.number_cons, hfirst, Option.getD_some]
  omega

/-! ## Whole texts -/

theorem bytesFrom_cons {offset : Nat} {c : Char} {text : List Char} {i : Item}
    (h : item offset c text = .ok i) :
    bytesFrom offset (c :: text)
      = (bytesFrom (offset + (text.length + 1 - i.rest.length)) i.rest).map (i.meaning ++ ·) := by
  rw [bytesFrom]
  split
  · rename_i e he
    rw [h] at he
    cases he
  · rename_i j hj
    rw [h] at hj
    cases hj
    rfl

theorem bytesFrom_cons_error {offset : Nat} {c : Char} {text : List Char} {e : BodyError}
    (h : item offset c text = .error e) : bytesFrom offset (c :: text) = .error e := by
  rw [bytesFrom]
  split
  · rename_i e' he
    rw [h] at he
    cases he
    rfl
  · rename_i i hi
    rw [h] at hi
    cases hi

/-- What is read is the meaning of the first item and what is read behind it. -/
theorem bytesFrom_cons_eq_ok {offset : Nat} {c : Char} {text : List Char} {bytes : List UInt8}
    (h : bytesFrom offset (c :: text) = .ok bytes) :
    ∃ i offset' following, item offset c text = .ok i
      ∧ bytesFrom offset' i.rest = .ok following ∧ bytes = i.meaning ++ following := by
  cases hitem : item offset c text with
  | error e =>
      rw [bytesFrom] at h
      split at h
      · cases h
      · rename_i i hi
        rw [hitem] at hi
        cases hi
  | ok i =>
      rw [bytesFrom_cons hitem] at h
      cases hrest : bytesFrom (offset + (text.length + 1 - i.rest.length)) i.rest with
      | error e =>
          rw [hrest] at h
          cases h
      | ok following =>
          rw [hrest] at h
          cases h
          exact ⟨i, _, following, rfl, hrest, rfl⟩

/-- `text` is read as `bytes`, wherever it stands. -/
def Reads (text : List Char) (bytes : List UInt8) : Prop :=
  ∀ offset, bytesFrom offset text = .ok bytes

theorem Reads.nil : Reads [] [] := by
  intro offset
  rw [bytesFrom]

theorem Reads.cons {c : Char} {text : List Char} {i : Item} {bytes : List UInt8}
    (hitem : ∀ offset, item offset c text = .ok i) (hrest : Reads i.rest bytes) :
    Reads (c :: text) (i.meaning ++ bytes) := by
  intro offset
  rw [bytesFrom_cons (hitem offset), hrest]
  rfl

theorem Reads.marker {rest : List Char} {bytes : List UInt8} (h : Reads rest bytes) :
    Reads ('"' :: '"' :: rest) bytes :=
  Reads.cons (fun offset => item_marker offset rest) h

end ByteEmbed.Body
