import ByteEmbed.Proofs.Hex
import ByteEmbed.Symbol

/-!
# ByteEmbed.Proofs.Symbol — which texts of digits make a symbol, and of which bytes.

A text may be anything: characters of several bytes, signs, spaces.  Whether it makes a symbol is
decided by its UTF-8 bytes alone, whatever the section and the name are, and the bytes of the symbol
are then the text itself but for the case of its digits (`ofHex_exact`).  What a refusal says of the
text is not told here.
-/

namespace ByteEmbed

/-! ## Bytes that are digits -/

/-- The code of an ASCII character `0`..`9`, `A`..`F` or `a`..`f`. -/
def IsHexByte (byte : UInt8) : Prop :=
  (0x30 ≤ byte ∧ byte ≤ 0x39) ∨ (0x41 ≤ byte ∧ byte ≤ 0x46) ∨ (0x61 ≤ byte ∧ byte ≤ 0x66)

instance (byte : UInt8) : Decidable (IsHexByte byte) :=
  inferInstanceAs (Decidable (_ ∨ _ ∨ _))

theorem isHex_ofUInt8_iff (byte : UInt8) :
    Digit.isHex (Char.ofUInt8 byte) = true ↔ IsHexByte byte := by
  have hall : ∀ n < 256,
      Digit.isHex (Char.ofUInt8 (UInt8.ofNat n)) = true ↔ IsHexByte (UInt8.ofNat n) := by
    decide +kernel
  have hbyte := hall byte.toNat byte.toNat_lt
  rwa [UInt8.ofNat_toNat] at hbyte

namespace Symbol

/-! ## Symbols of digits -/

variable {sectionName : String} {name : Name} {text : String}

/-- A symbol is made of what its text decodes to, under the name and in the section it is given. -/
theorem ofHex_eq_ok_iff {symbol : Symbol} :
    ofHex sectionName name text = .ok symbol
      ↔ ∃ bytes, Hex.decode? text = some bytes
        ∧ symbol = { sectionName, name := name.display, realName := name.real, bytes } := by
  rw [ofHex]
  cases Hex.decode? text with
  | none => simp
  | some bytes => simp [eq_comm]

theorem exists_ofHex_iff :
    (∃ symbol, ofHex sectionName name text = .ok symbol)
      ↔ ∃ bytes, Hex.decode? text = some bytes := by
  simp only [ofHex_eq_ok_iff]
  constructor
  · rintro ⟨_, bytes, hbytes, _⟩
    exact ⟨bytes, hbytes⟩
  · rintro ⟨bytes, hbytes⟩
    exact ⟨_, bytes, hbytes, rfl⟩

/-- **Symbols are exact.** A text makes a symbol exactly when it has an even number of UTF-8 bytes,
each the code of a hexadecimal digit.  The bytes of the symbol are printed as the text in lower
case, and any bytes are those of the symbol that their digits make, whatever the case of each digit.
What an even number of bytes decodes to is followed by what any text behind them decodes to. -/
theorem ofHex_exact (sectionName : String) (name : Name) :
    (∀ text, (∃ symbol, ofHex sectionName name text = .ok symbol)
      ↔ text.utf8ByteSize % 2 = 0 ∧ ∀ byte ∈ Text.Utf8.encode text, IsHexByte byte)
    ∧ (∀ text symbol, ofHex sectionName name text = .ok symbol →
        Hex.encode symbol.bytes = text.toLower)
    ∧ (∀ text bytes, text.toLower = Hex.encode bytes →
        ofHex sectionName name text
          = .ok { sectionName, name := name.display, realName := name.real, bytes })
    ∧ ∀ text other, text.utf8ByteSize % 2 = 0 →
        Hex.decode? (text ++ other)
          = do return (← Hex.decode? text) ++ (← Hex.decode? other) := by
  refine ⟨?_, ?_, ?_, ?_⟩
  · intro text
    rw [exists_ofHex_iff, Hex.exists_decode?_iff]
    simp only [isHex_ofUInt8_iff]
  · intro text symbol h
    obtain ⟨bytes, hbytes, rfl⟩ := ofHex_eq_ok_iff.mp h
    exact Hex.decode?_eq_some_iff.mp hbytes
  · intro text bytes h
    exact ofHex_eq_ok_iff.mpr ⟨bytes, Hex.decode?_eq_some_iff.mpr h.symm, rfl⟩
  · intro text other h
    exact Hex.decode?_append h other

/-- Digits of both cases, and a text with an even number of bytes of which none is a digit. -/
theorem ofHex_exact_mixed_case :
    "5bC3".toLower = Hex.encode [0x5b, 0xc3]
    ∧ ofHex ".text" ⟨"f", "f"⟩ "5bC3"
      = .ok { sectionName := ".text", name := "f", realName := "f", bytes := [0x5b, 0xc3] }
    ∧ Hex.encode [0x5b, 0xc3] = "5bC3".toLower
    ∧ "5b".utf8ByteSize % 2 = 0
    ∧ Hex.decode? ("5b" ++ "C3") = some ([0x5b] ++ [0xc3])
    ∧ "éé".utf8ByteSize % 2 = 0
    ∧ ¬ ∃ symbol, ofHex ".text" ⟨"f", "f"⟩ "éé" = .ok symbol := by
  obtain ⟨hmade, hprinted, hread, happend⟩ := ofHex_exact ".text" ⟨"f", "f"⟩
  have hlower : "5bC3".toLower = Hex.encode [0x5b, 0xc3] := by decide +kernel
  have hsymbol := hread "5bC3" [0x5b, 0xc3] hlower
  have heven : "5b".utf8ByteSize % 2 = 0 := by decide
  have hnot : ¬ ∀ byte ∈ Text.Utf8.encode "éé", IsHexByte byte := by decide +kernel
  refine ⟨hlower, hsymbol, hprinted _ _ hsymbol, heven, ?_, by decide, ?_⟩
  · exact happend "5b" "C3" heven
  · intro h
    exact hnot ((hmade "éé").mp h).2

end Symbol

end ByteEmbed
