import ByteEmbed.Proofs.Literal.Offence

/-!
# ByteEmbed.Proofs.Literal.Numeric — numeric escapes of any length and value.

`NumericEscape` is an escape of digits together with the number that they spell, which no word
bounds: a hexadecimal escape has as many digits as follow it, leading zeros included.  A byte holds
the number or it does not, and the escape is an item of the grammar in the one case and offends in
the other (`NumericEscape.isItem`, `NumericEscape.offends`).  So a number that is too large for a
byte, or for the word it is computed in, is refused, and never comes back as a small one
(`read_numericEscape`).  An escape without digits is none of these.
-/

namespace ByteEmbed.Body

open Digit (isDigit number takeRun NoneAhead)

/-- `text` is a numeric escape when `rest` follows it, and its digits spell `value`. -/
inductive NumericEscape : (text rest : List Char) → (value : Nat) → Prop
  /-- A hexadecimal escape has at least one digit and every digit that follows. -/
  | hex {digits rest : List Char} (nonempty : digits ≠ [])
      (digit : ∀ c ∈ digits, isDigit 16 c = true) (longest : NoneAhead 16 rest) :
      NumericEscape ('\\' :: 'x' :: digits) rest (number 16 digits)
  /-- An octal escape has one to three digits, as many as follow. -/
  | octal {digits rest : List Char} (nonempty : digits ≠ [])
      (digit : ∀ c ∈ digits, isDigit 8 c = true) (atMost : digits.length ≤ 3)
      (longest : digits.length = 3 ∨ NoneAhead 8 rest) :
      NumericEscape ('\\' :: digits) rest (number 8 digits)

/-! ## What a byte holds and what it does not -/

section

variable {text rest : List Char} {value : Nat}

theorem NumericEscape.isItem (h : NumericEscape text rest value) (hfits : value ≤ 255) :
    IsItem text rest [UInt8.ofNat value] := by
  cases h with
  | hex nonempty digit longest => exact .hex nonempty digit longest hfits
  | octal nonempty digit atMost longest => exact .octal nonempty digit atMost longest hfits

theorem NumericEscape.offends (h : NumericEscape text rest value) (hlarge : 255 < value)
    (offset : Nat) : Offends (text ++ rest) (.tooLarge offset) := by
  cases h with
  | hex nonempty digit longest => exact .hexTooLarge digit longest hlarge
  | octal nonempty digit atMost longest => exact .octalTooLarge digit atMost longest hlarge

/-- An escape starts with a backslash, which no digit is. -/
theorem NumericEscape.noneAhead (h : NumericEscape text rest value) :
    NoneAhead 16 (text ++ rest) := by
  have hback : isDigit 16 '\\' = false := by decide
  intro c hc
  cases h <;>
    · obtain rfl := Option.some.inj hc
      exact hback

end

/-! ## Octal escapes -/

/-- An octal escape is put together from its first digit and a run of two more as the same numbers
are without a word around them. -/
theorem octal_within_word {first : Nat} (hfirst : first < 8) {text : List Char} {run : Digit.Run}
    (hrun : takeRun 8 2 text = run) :
    8 ^ run.count ≤ 64
      ∧ first * 8 ^ run.count + run.value.toNat < 512
      ∧ (UInt32.ofNat first * 8 ^ run.count + run.value).toNat
        = first * 8 ^ run.count + run.value.toNat := by
  obtain ⟨digits, rest, rfl, hdigits, hlength, hend⟩ := Digit.exists_run 8 2 text
  obtain rfl := (Digit.takeRun_append 2 hdigits hlength hend).symm.trans hrun
  have hpow : 8 ^ digits.length ≤ 8 ^ 2 := Nat.pow_le_pow_right (by decide) hlength
  dsimp only
  rw [toNat_octal hfirst hdigits hlength, toNat_valueOf_octal hdigits hlength]
  exact ⟨hpow, octal_lt hfirst hdigits hlength, rfl⟩

/-! ## Whole bodies -/

/-- Behind a body that is read, a value that a byte holds is read as this byte. -/
theorem bytesFrom_numericEscape {before text rest : List Char} {bytes : List UInt8} {value : Nat}
    (hbefore : Denotes before bytes) (h : NumericEscape text rest value) (hfits : value ≤ 255) :
    bytesFrom 0 (before ++ (text ++ rest))
      = (bytesFrom (before.length + text.length) rest).map (bytes ++ UInt8.ofNat value :: ·) := by
  rw [bytesFrom_append hbefore h.noneAhead, bytesFrom_item (h.isItem hfits), Nat.zero_add]
  cases bytesFrom (before.length + text.length) rest <;> rfl

/-- **Numeric escapes never wrap.** A run takes the longest digits that its limit allows, counts
them, and is worth their number or the greatest word.  The run of an octal escape is added to its
first digit without leaving a word.  So a numeric escape behind any body that is read, in front of
any text, is read as the byte of its number if that is at most 255, and is refused otherwise. -/
theorem read_numericEscape :
    (∀ radix limit text, 0 < radix → ∃ digits, Digit.IsLongest radix limit text digits
      ∧ digits ++ (takeRun radix limit text).rest = text
      ∧ (takeRun radix limit text).count = digits.length
      ∧ (takeRun radix limit text).value.toNat = min (number radix digits) (2 ^ 32 - 1))
    ∧ (∀ first text run, first < 8 → takeRun 8 2 text = run →
      8 ^ run.count ≤ 64
      ∧ first * 8 ^ run.count + run.value.toNat < 512
      ∧ (UInt32.ofNat first * 8 ^ run.count + run.value).toNat
        = first * 8 ^ run.count + run.value.toNat)
    ∧ ∀ before escape after bytes value, read before = .ok bytes →
      NumericEscape escape.toList after.toList value →
      read (before ++ escape ++ after)
        = if value ≤ 255 then
            ((read after).mapError (·.later (before ++ escape).utf8ByteSize)).map
              (bytes ++ UInt8.ofNat value :: ·)
          else .error (.tooLarge before.utf8ByteSize) := by
  refine ⟨fun radix limit text hradix => Digit.exists_takeRun_eq hradix limit text,
    fun first text run hfirst hrun => octal_within_word hfirst hrun, ?_⟩
  intro before escape after bytes value hbefore hescape
  have htext : (before ++ escape ++ after).toList
      = before.toList ++ (escape.toList ++ after.toList) := by simp
  have hdenotes := denotes_of_bytesFrom hbefore
  rw [read, htext]
  split
  · rename_i hfits
    have hsize : (before ++ escape).utf8ByteSize = before.toList.length + escape.toList.length := by
      rw [String.utf8ByteSize_append, utf8ByteSize_of_read hbefore,
        Text.Utf8.utf8ByteSize_of_ascii (hescape.isItem hfits).ascii, ← String.length_toList]
    rw [bytesFrom_numericEscape hdenotes hescape hfits, bytesFrom_eq_mapError, hsize, read]
  · rename_i hlarge
    apply bytesFrom_of_offends hdenotes (hescape.offends (Nat.lt_of_not_le hlarge) _)
    rw [utf8ByteSize_of_read hbefore, Nat.zero_add]
    rfl

/-- A value that leaves a word, the greatest octal escape, and zeros for more digits than a word
has. -/
theorem read_numericEscape_leading_zeros :
    (∃ digits, Digit.IsLongest 16 10 "fffffffff!".toList digits
      ∧ digits ++ (takeRun 16 10 "fffffffff!".toList).rest = "fffffffff!".toList
      ∧ (takeRun 16 10 "fffffffff!".toList).count = digits.length
      ∧ (takeRun 16 10 "fffffffff!".toList).value.toNat = min (number 16 digits) (2 ^ 32 - 1))
    ∧ takeRun 8 2 ['7', '7', '7'] = ⟨63, 2, ['7']⟩
    ∧ (UInt32.ofNat 7 * 64 + 63).toNat = 7 * 64 + 63
    ∧ read "a" = .ok [0x61]
    ∧ NumericEscape "\\x00000000041".toList "g".toList 0x41
    ∧ read ("a" ++ "\\x00000000041" ++ "g") = .ok ([0x61] ++ 0x41 :: [0x67])
    ∧ NumericEscape "\\777".toList "7".toList 511
    ∧ read ("a" ++ "\\777" ++ "7") = .error (.tooLarge 1) := by
  obtain ⟨hrun, hoctal, hread⟩ := read_numericEscape
  have hbefore : read "a" = .ok [0x61] := by cbv
  have hafter : read "g" = .ok [0x67] := by cbv
  have hzeros : "00000000041".toList.all (isDigit 16) = true := by decide +kernel
  have hoctals : ['7', '7', '7'].all (isDigit 8) = true := by decide
  have hsevens : takeRun 8 2 ['7', '7', '7'] = ⟨63, 2, ['7']⟩ := by decide
  have hhex : NumericEscape "\\x00000000041".toList "g".toList 0x41 :=
    .hex (List.cons_ne_nil _ _) (List.all_eq_true.mp hzeros) (by rintro c ⟨rfl⟩; decide)
  have hlarge : NumericEscape "\\777".toList "7".toList 511 :=
    .octal (List.cons_ne_nil _ _) (List.all_eq_true.mp hoctals) (Nat.le_refl 3) (Or.inl rfl)
  have hfits := hread "a" "\\x00000000041" "g" _ _ hbefore hhex
  rw [if_pos (by decide), hafter] at hfits
  have hrefused := hread "a" "\\777" "7" _ _ hbefore hlarge
  rw [if_neg (by decide)] at hrefused
  have hword := hoctal 7 _ _ (by decide) hsevens
  exact ⟨hrun 16 10 _ (by decide), hsevens, hword.2.2, hbefore, hhex, hfits, hlarge, hrefused⟩

end ByteEmbed.Body
