import ByteEmbed.Text.Utf8

/-!
# ByteEmbed.Proofs.Text.Utf8 — the bytes of a text, character by character.

A character of ASCII is one byte, its own code point, and every byte of another character is at
least 0x80.  So a property of ASCII holds of the bytes of a text exactly when it holds of the
characters.
-/

namespace ByteEmbed.Text.Utf8

/-- The bytes of a text are those of its characters, in order. -/
theorem encode_eq_flatMap (text : String) :
    encode text = text.toList.flatMap String.utf8EncodeChar := by
  have hbytes : text.toByteArray = (text.toList.flatMap String.utf8EncodeChar).toByteArray := by
    rw [← String.utf8Encode_toList]
    rfl
  rw [encode, String.toUTF8, hbytes, List.toList_data_toByteArray]

theorem encode_append (text other : String) :
    encode (text ++ other) = encode text ++ encode other := by
  rw [encode_eq_flatMap, encode_eq_flatMap, encode_eq_flatMap, String.toList_append,
    List.flatMap_append]

theorem length_encode (text : String) : (encode text).length = text.utf8ByteSize := by
  rw [encode, Array.length_toList]
  rfl

/-- A character of ASCII is one byte. -/
theorem utf8EncodeChar_of_ascii {c : Char} (h : c.val < 128) :
    String.utf8EncodeChar c = [c.val.toUInt8] := by
  apply String.utf8EncodeChar_eq_singleton
  rw [Char.utf8Size_eq_one_iff, UInt32.le_iff_toNat_le]
  have hlt : c.val.toNat < 128 := UInt32.lt_iff_toNat_lt.mp h
  exact Nat.le_of_lt_succ hlt

/-- No byte of another character is a character of ASCII. -/
theorem le_of_mem_utf8EncodeChar {c : Char} (h : ¬ c.val < 128) {byte : UInt8}
    (hbyte : byte ∈ String.utf8EncodeChar c) : 128 ≤ byte.toNat := by
  have hlarge : ¬ c.val.toNat ≤ 127 := by
    rw [UInt32.lt_iff_toNat_lt] at h
    simp only [UInt32.reduceToNat] at h
    omega
  unfold String.utf8EncodeChar at hbyte
  simp only [if_neg hlarge] at hbyte
  split at hbyte
  · simp only [List.mem_cons, List.not_mem_nil, or_false] at hbyte
    rcases hbyte with rfl | rfl <;> (rw [UInt8.toNat_ofNat']; omega)
  · split at hbyte
    · simp only [List.mem_cons, List.not_mem_nil, or_false] at hbyte
      rcases hbyte with rfl | rfl | rfl <;> (rw [UInt8.toNat_ofNat']; omega)
    · simp only [List.mem_cons, List.not_mem_nil, or_false] at hbyte
      rcases hbyte with rfl | rfl | rfl | rfl <;> (rw [UInt8.toNat_ofNat']; omega)

theorem ofUInt8_toUInt8 {c : Char} (h : c.val < 128) : Char.ofUInt8 c.val.toUInt8 = c := by
  have hlt : c.val.toNat < 128 := UInt32.lt_iff_toNat_lt.mp h
  apply Char.ext
  show c.val.toUInt8.toUInt32 = c.val
  apply UInt32.toNat_inj.mp
  rw [UInt8.toNat_toUInt32, UInt32.toNat_toUInt8]
  omega

section

variable {p : Char → Bool} (hascii : ∀ c, p c = true → c.val < 128)

include hascii

/-- A property of ASCII holds of a character exactly when it holds of its bytes. -/
theorem forall_mem_utf8EncodeChar_iff (c : Char) :
    (∀ byte ∈ String.utf8EncodeChar c, p (Char.ofUInt8 byte) = true) ↔ p c = true := by
  by_cases hc : c.val < 128
  · rw [utf8EncodeChar_of_ascii hc]
    simp only [List.mem_singleton, forall_eq, ofUInt8_toUInt8 hc]
  · -- neither the character nor its first byte is of ASCII
    constructor
    · intro h
      obtain ⟨byte, bytes, hbytes⟩ :=
        List.exists_cons_of_ne_nil (String.utf8EncodeChar_ne_nil (c := c))
      have hmem : byte ∈ String.utf8EncodeChar c := by simp [hbytes]
      have hlarge := le_of_mem_utf8EncodeChar hc hmem
      have hsmall : byte.toUInt32 < 128 := hascii _ (h byte hmem)
      rw [UInt32.lt_iff_toNat_lt, UInt8.toNat_toUInt32] at hsmall
      exact absurd hsmall (Nat.not_lt.mpr hlarge)
    · intro h
      exact absurd (hascii c h) hc

/-- A property of ASCII holds of all bytes of a text exactly when it holds of all characters. -/
theorem forall_mem_encode_iff (text : String) :
    (∀ byte ∈ encode text, p (Char.ofUInt8 byte) = true) ↔ ∀ c ∈ text.toList, p c = true := by
  rw [encode_eq_flatMap]
  simp only [List.mem_flatMap, forall_exists_index, and_imp]
  constructor
  · intro h c hc
    exact (forall_mem_utf8EncodeChar_iff hascii c).mp fun byte hbyte => h byte c hc hbyte
  · intro h byte c hc hbyte
    exact (forall_mem_utf8EncodeChar_iff hascii c).mpr (h c hc) byte hbyte

end

/-- That a text is of ASCII, as it can be computed. -/
theorem ascii_of_all {text : String} (h : text.toList.all (fun c => c.val < 128) = true) :
    ∀ c ∈ text.toList, c.val < 128 :=
  fun c hc => of_decide_eq_true (List.all_eq_true.mp h c hc)

/-- The bytes of a text of ASCII are the code points of its characters. -/
theorem encode_of_ascii {text : String} (h : ∀ c ∈ text.toList, c.val < 128) :
    encode text = text.toList.map (·.val.toUInt8) := by
  rw [encode_eq_flatMap]
  generalize text.toList = chars at h
  induction chars with
  | nil => rfl
  | cons c chars ih =>
      have hrest := ih fun d hd => h d (List.mem_cons_of_mem c hd)
      rw [List.flatMap_cons, utf8EncodeChar_of_ascii (h c List.mem_cons_self),
        List.singleton_append, hrest, List.map_cons]

/-- A text of ASCII has as many bytes as characters. -/
theorem utf8ByteSize_of_ascii {text : String} (h : ∀ c ∈ text.toList, c.val < 128) :
    text.utf8ByteSize = text.length := by
  rw [← length_encode, encode_of_ascii h, List.length_map, String.length_toList]

end ByteEmbed.Text.Utf8
