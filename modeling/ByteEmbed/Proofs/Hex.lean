import ByteEmbed.Hex
import ByteEmbed.Proofs.Digit
import ByteEmbed.Proofs.Text.Utf8

/-!
# ByteEmbed.Proofs.Hex — texts of digits that spell bytes.

`Spells` says which digits spell which bytes: two to a byte, the high one first, in either case.
Decoding is exactly this relation (`decodeChars?_eq_some_iff`), and it succeeds on an even number of
hexadecimal digits and on nothing else (`exists_spells_iff`).  Decoding the UTF-8 bytes of a text,
each taken as a character, comes to the same (`decode?_eq_decodeChars?_encode`), so whether it fails
can be told from these bytes (`decode?_eq_none_iff`).  Decoding also undoes printing, up to the case
of the digits (`decode?_eq_some_iff`).
-/

namespace ByteEmbed.Hex

/-- `digits` spell `bytes`, two to a byte, each of either case. -/
inductive Spells : List Char → List UInt8 → Prop
  | nil : Spells [] []
  | cons {high low : Char} {byte : UInt8} {digits : List Char} {bytes : List UInt8}
      (hhigh : Digit.value? 16 high = some (byte.toNat / 16))
      (hlow : Digit.value? 16 low = some (byte.toNat % 16)) (hrest : Spells digits bytes) :
      Spells (high :: low :: digits) (byte :: bytes)

/-! ## One byte -/

theorem byte?_eq_some_iff {high low : Char} {byte : UInt8} :
    byte? high low = some byte
      ↔ Digit.value? 16 high = some (byte.toNat / 16)
        ∧ Digit.value? 16 low = some (byte.toNat % 16) := by
  have hbyte := byte.toNat_lt
  constructor
  · intro h
    simp only [byte?, Option.bind_eq_bind, Option.bind_eq_some_iff, Option.pure_def,
      Option.some.injEq] at h
    obtain ⟨hi, hhigh, lo, hlow, rfl⟩ := h
    have hhi := Digit.lt_of_value?_eq_some hhigh
    have hlo := Digit.lt_of_value?_eq_some hlow
    have hnat : (UInt8.ofNat (16 * hi + lo)).toNat = 16 * hi + lo := by
      rw [UInt8.toNat_ofNat']
      omega
    rw [hnat, hhigh, hlow]
    constructor
    · congr 1
      omega
    · congr 1
      omega
  · rintro ⟨hhigh, hlow⟩
    have hnat : 16 * (byte.toNat / 16) + byte.toNat % 16 = byte.toNat := by omega
    rw [byte?, hhigh, hlow]
    show some (UInt8.ofNat (16 * (byte.toNat / 16) + byte.toNat % 16)) = some byte
    rw [hnat, UInt8.ofNat_toNat]

/-! ## Decoding -/

theorem decodeChars?_of_spells {digits : List Char} {bytes : List UInt8}
    (h : Spells digits bytes) : decodeChars? digits = some bytes := by
  induction h with
  | nil => rfl
  | cons hhigh hlow hrest ih => simp [decodeChars?, byte?_eq_some_iff.mpr ⟨hhigh, hlow⟩, ih]

theorem spells_of_decodeChars? {digits : List Char} {bytes : List UInt8}
    (h : decodeChars? digits = some bytes) : Spells digits bytes := by
  fun_induction decodeChars? digits generalizing bytes with
  | case1 =>
      cases h
      exact .nil
  | case2 => cases h
  | case3 high low rest ih =>
      simp only [Option.bind_eq_bind, Option.bind_eq_some_iff, Option.pure_def,
        Option.some.injEq] at h
      obtain ⟨byte, hbyte, later, hlater, rfl⟩ := h
      obtain ⟨hhigh, hlow⟩ := byte?_eq_some_iff.mp hbyte
      exact .cons hhigh hlow (ih hlater)

theorem decodeChars?_eq_some_iff {digits : List Char} {bytes : List UInt8} :
    decodeChars? digits = some bytes ↔ Spells digits bytes :=
  ⟨spells_of_decodeChars?, decodeChars?_of_spells⟩

theorem Spells.append {digits digits' : List Char} {bytes bytes' : List UInt8}
    (h : Spells digits bytes) (h' : Spells digits' bytes') :
    Spells (digits ++ digits') (bytes ++ bytes') := by
  induction h with
  | nil => exact h'
  | cons hhigh hlow hrest ih => exact .cons hhigh hlow ih

theorem Spells.length_eq {digits : List Char} {bytes : List UInt8} (h : Spells digits bytes) :
    digits.length = 2 * bytes.length := by
  induction h with
  | nil => rfl
  | cons hhigh hlow hrest ih =>
      simp only [List.length_cons, ih]
      omega

/-- Only the empty text spells no byte. -/
theorem Spells.ne_nil {text : String} {bytes : List UInt8} (h : Spells text.toList bytes)
    (hne : text ≠ "") : bytes ≠ [] := by
  rintro rfl
  have hlength := h.length_eq
  have hnil : text.toList = [] := by simpa using hlength
  exact hne (String.toList_eq_nil_iff.mp hnil)

theorem Spells.isDigit {digits : List Char} {bytes : List UInt8} (h : Spells digits bytes) :
    ∀ c ∈ digits, Digit.isDigit 16 c = true := by
  induction h with
  | nil =>
      intro c hc
      cases hc
  | cons hhigh hlow hrest ih =>
      intro c hc
      rcases List.mem_cons.mp hc with rfl | hc
      · exact Digit.isDigit_of_value?_eq_some hhigh
      · rcases List.mem_cons.mp hc with rfl | hc
        · exact Digit.isDigit_of_value?_eq_some hlow
        · exact ih c hc

/-- Two digits spell one byte. -/
theorem exists_byte {high low : Char} (hhigh : Digit.isDigit 16 high = true)
    (hlow : Digit.isDigit 16 low = true) :
    ∃ byte : UInt8, Digit.value? 16 high = some (byte.toNat / 16)
      ∧ Digit.value? 16 low = some (byte.toNat % 16) := by
  obtain ⟨hi, hhi⟩ := Option.isSome_iff_exists.mp hhigh
  obtain ⟨lo, hlo⟩ := Option.isSome_iff_exists.mp hlow
  refine ⟨UInt8.ofNat (16 * hi + lo), byte?_eq_some_iff.mp ?_⟩
  simp [byte?, hhi, hlo]

/-- An even number of hexadecimal digits spells bytes, and nothing else does. -/
theorem exists_spells_iff {digits : List Char} :
    (∃ bytes, Spells digits bytes)
      ↔ digits.length % 2 = 0 ∧ ∀ c ∈ digits, Digit.isDigit 16 c = true := by
  constructor
  · rintro ⟨bytes, h⟩
    refine ⟨?_, h.isDigit⟩
    rw [h.length_eq]
    omega
  · rintro ⟨heven, hdigits⟩
    -- the cases are those of the decoder; an odd digit at the end contradicts the length
    fun_induction decodeChars? digits with
    | case1 => exact ⟨[], .nil⟩
    | case2 c => simp at heven
    | case3 high low rest ih =>
        obtain ⟨byte, hhigh, hlow⟩ := exists_byte (hdigits high (by simp)) (hdigits low (by simp))
        obtain ⟨bytes, hbytes⟩ := ih (by simp only [List.length_cons] at heven; omega)
          fun c hc => hdigits c (by simp [hc])
        exact ⟨byte :: bytes, .cons hhigh hlow hbytes⟩

/-- A text of hexadecimal digits has one byte to a digit. -/
theorem utf8ByteSize_of_isDigit {text : String}
    (h : ∀ c ∈ text.toList, Digit.isDigit 16 c = true) : text.utf8ByteSize = text.length :=
  Text.Utf8.utf8ByteSize_of_ascii fun c hc => Digit.ascii_of_isDigit (h c hc)

/-! ## The bytes of a text -/

/-- Nothing but digits is decoded. -/
theorem decodeChars?_eq_none {digits : List Char} (h : ¬ ∀ c ∈ digits, Digit.isHex c = true) :
    decodeChars? digits = none := by
  rw [Option.eq_none_iff_forall_ne_some]
  intro bytes hbytes
  exact h (spells_of_decodeChars? hbytes).isDigit

/-- A text is decoded just as its UTF-8 bytes are, each byte taken as the character of its number:
a text of digits is these characters, and any other has a byte that is no digit. -/
theorem decode?_eq_decodeChars?_encode (text : String) :
    decode? text = decodeChars? ((Text.Utf8.encode text).map Char.ofUInt8) := by
  have hbytes := Text.Utf8.forall_mem_encode_iff (p := Digit.isHex)
    (fun c hc => Digit.ascii_of_isDigit hc) text
  by_cases hhex : ∀ c ∈ text.toList, Digit.isHex c = true
  · have hascii : ∀ c ∈ text.toList, c.val < 128 := fun c hc => Digit.ascii_of_isDigit (hhex c hc)
    have hchars : (text.toList.map (·.val.toUInt8)).map Char.ofUInt8 = text.toList := by
      rw [List.map_map]
      calc text.toList.map (Char.ofUInt8 ∘ (·.val.toUInt8))
          = text.toList.map id :=
            List.map_congr_left fun c hc => Text.Utf8.ofUInt8_toUInt8 (hascii c hc)
        _ = text.toList := List.map_id _
    rw [decode?, Text.Utf8.encode_of_ascii hascii, hchars]
  · have hnot : ¬ ∀ c ∈ (Text.Utf8.encode text).map Char.ofUInt8, Digit.isHex c = true := by
      rw [List.forall_mem_map, hbytes]
      exact hhex
    rw [decode?, decodeChars?_eq_none hhex, decodeChars?_eq_none hnot]

/-- A text spells bytes when it has an even number of UTF-8 bytes, each of them a digit. -/
theorem exists_decode?_iff {text : String} :
    (∃ bytes, decode? text = some bytes)
      ↔ text.utf8ByteSize % 2 = 0
        ∧ ∀ byte ∈ Text.Utf8.encode text, Digit.isHex (Char.ofUInt8 byte) = true := by
  simp only [decode?_eq_decodeChars?_encode, decodeChars?_eq_some_iff, exists_spells_iff,
    List.length_map, Text.Utf8.length_encode, List.forall_mem_map]
  rfl

/-- A text is refused for an odd number of UTF-8 bytes, or for a byte that is no digit. -/
theorem decode?_eq_none_iff {text : String} :
    decode? text = none
      ↔ text.utf8ByteSize % 2 = 1
        ∨ ∃ byte ∈ Text.Utf8.encode text, Digit.isHex (Char.ofUInt8 byte) = false := by
  have hrefused : decode? text = none ↔ ¬ ∃ bytes, decode? text = some bytes := by
    rw [Option.eq_none_iff_forall_ne_some, not_exists]
  rw [hrefused, exists_decode?_iff, Classical.not_and_iff_not_or_not]
  exact or_congr (by omega) (by simp)

/-! ## Digits printed again -/

/-- Digits spell the bytes that are printed as these digits in lower case. -/
theorem spells_iff_map_toLower {digits : List Char} {bytes : List UInt8} :
    Spells digits bytes ↔ digits.map Char.toLower = bytes.flatMap pair := by
  have hhigh : ∀ byte : UInt8, byte.toNat / 16 < 16 := fun byte => by
    have hbyte := byte.toNat_lt
    omega
  have hlow : ∀ byte : UInt8, byte.toNat % 16 < 16 := fun byte => Nat.mod_lt _ (by decide)
  constructor
  · intro h
    induction h with
    | nil => rfl
    | @cons high low byte digits bytes hh hl _ ih =>
        rw [List.map_cons, List.map_cons, ih, List.flatMap_cons, pair,
          (Digit.value?_eq_some_iff_lower (hhigh byte)).mp hh,
          (Digit.value?_eq_some_iff_lower (hlow byte)).mp hl]
        rfl
  · intro h
    induction bytes generalizing digits with
    | nil =>
        obtain rfl : digits = [] := List.map_eq_nil_iff.mp h
        exact .nil
    | cons byte bytes ih =>
        rw [List.flatMap_cons, pair, List.cons_append, List.cons_append, List.nil_append] at h
        obtain ⟨high, rest, rfl, hh, hrest⟩ := List.map_eq_cons_iff.mp h
        obtain ⟨low, digits, rfl, hl, hdigits⟩ := List.map_eq_cons_iff.mp hrest
        exact .cons ((Digit.value?_eq_some_iff_lower (hhigh byte)).mpr hh)
          ((Digit.value?_eq_some_iff_lower (hlow byte)).mpr hl) (ih hdigits)

/-- Decoding a text gives the bytes that are printed as this text in lower case. -/
theorem decode?_eq_some_iff {text : String} {bytes : List UInt8} :
    decode? text = some bytes ↔ encode bytes = text.toLower := by
  have hlower : text.toLower.toList = text.toList.map Char.toLower := String.toList_map
  rw [decode?, decodeChars?_eq_some_iff, spells_iff_map_toLower, ← String.toList_inj, encode,
    String.toList_ofList, hlower]
  exact eq_comm

/-! ## Texts one behind the other -/

theorem decodeChars?_append {digits : List Char} (h : digits.length % 2 = 0) (rest : List Char) :
    decodeChars? (digits ++ rest)
      = do return (← decodeChars? digits) ++ (← decodeChars? rest) := by
  -- the cases are those of the decoder, which cuts an even number of characters into pairs
  fun_induction decodeChars? digits with
  | case1 => simp
  | case2 c => simp at h
  | case3 high low digits ih =>
      have heven : digits.length % 2 = 0 := by
        simp only [List.length_cons] at h
        omega
      simp [decodeChars?, ih heven, Option.bind_assoc]

/-- Behind an even number of UTF-8 bytes, a text is decoded as it would be on its own. -/
theorem decode?_append {text : String} (h : text.utf8ByteSize % 2 = 0) (other : String) :
    decode? (text ++ other) = do return (← decode? text) ++ (← decode? other) := by
  have heven : ((Text.Utf8.encode text).map Char.ofUInt8).length % 2 = 0 := by
    rw [List.length_map, Text.Utf8.length_encode, h]
  rw [decode?_eq_decodeChars?_encode, decode?_eq_decodeChars?_encode text,
    decode?_eq_decodeChars?_encode other, Text.Utf8.encode_append, List.map_append,
    decodeChars?_append heven]

end ByteEmbed.Hex
