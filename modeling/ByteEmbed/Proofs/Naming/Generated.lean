import ByteEmbed.Naming.Namer
import ByteEmbed.Proofs.Digit

/-!
# ByteEmbed.Proofs.Naming.Generated — the texts of generated names.

A generated name is a word, then random digits of a fixed number, then the count in hexadecimal,
which has no fixed width.  Behind a start of fixed length the count can be read back, so two
generated names are equal only if their counts are (`count_of_generatedText_eq`), whatever digits
the source gave.  Everything in a generated name may stand in an identifier, and no section symbol
is named like one, because the two words start with different letters.
-/

namespace ByteEmbed

/-! ## Hexadecimal texts -/

namespace Digit

/-- The digits of a number are hexadecimal digits. -/
theorem isHex_of_mem_toDigits {n : Nat} {c : Char} (h : c ∈ Nat.toDigits 16 n) :
    isHex c = true := by
  -- the induction takes one digit off the end, as the digits are written
  induction n using Nat.strongRecOn with
  | ind n ih =>
      rw [Nat.toDigits_eq_if (by decide)] at h
      split at h
      · rename_i hlt
        rw [List.mem_singleton.mp h]
        exact isHex_lower hlt
      · rcases List.mem_append.mp h with h | h
        · exact ih (n / 16) (by omega) h
        · rw [List.mem_singleton.mp h]
          exact isHex_lower (Nat.mod_lt n (by decide))

theorem number_snoc (radix : Nat) (digits : List Char) (c : Char) :
    number radix (digits ++ [c]) = number radix digits * radix + (value? radix c).getD 0 := by
  rw [number, List.foldl_append]
  rfl

/-- A number is read back from its digits. -/
theorem number_toDigits (n : Nat) : number 16 (Nat.toDigits 16 n) = n := by
  induction n using Nat.strongRecOn with
  | ind n ih =>
      rw [Nat.toDigits_eq_if (by decide)]
      split
      · rename_i hlt
        have hdigit : value? 16 n.digitChar = some n := value?_lower hlt
        rw [number, List.foldl_cons, hdigit, List.foldl_nil, Option.getD_some, Nat.zero_mul,
          Nat.zero_add]
      · have hdigit : value? 16 (n % 16).digitChar = some (n % 16) :=
          value?_lower (Nat.mod_lt n (by decide))
        rw [number_snoc, ih (n / 16) (by omega), hdigit, Option.getD_some]
        omega

end Digit

/-! ## Identifiers -/

theorem isIdentifier_iff {text : String} :
    isIdentifier text = true
      ↔ ∃ head tail, text.toList = head :: tail ∧ isIdentifierHead head = true
        ∧ ∀ c ∈ tail, isIdentifierTail c = true := by
  unfold isIdentifier
  cases htext : text.toList with
  | nil => simp
  | cons head tail =>
      simp only [Bool.and_eq_true, List.all_eq_true, List.cons.injEq]
      constructor
      · intro h
        exact ⟨head, tail, ⟨rfl, rfl⟩, h⟩
      · rintro ⟨_, _, ⟨rfl, rfl⟩, h⟩
        exact h

theorem isIdentifierTail_of_head {c : Char} (h : isIdentifierHead c = true) :
    isIdentifierTail c = true := by
  rw [isIdentifierHead, Bool.or_eq_true] at h
  rw [isIdentifierTail, Char.isAlphanum, Bool.or_eq_true, Bool.or_eq_true]
  rcases h with h | h
  · exact Or.inl (Or.inl h)
  · exact Or.inr h

/-- Every character of an identifier may stand behind its first. -/
theorem isIdentifierTail_of_mem {text : String} (h : isIdentifier text = true) {c : Char}
    (hc : c ∈ text.toList) : isIdentifierTail c = true := by
  obtain ⟨head, tail, htext, hhead, htail⟩ := isIdentifier_iff.mp h
  rw [htext] at hc
  rcases List.mem_cons.mp hc with rfl | hc
  · exact isIdentifierTail_of_head hhead
  · exact htail c hc

/-- An identifier stays one when such characters are put behind it. -/
theorem isIdentifier_append {start rest : String} (hstart : isIdentifier start = true)
    (hrest : ∀ c ∈ rest.toList, isIdentifierTail c = true) :
    isIdentifier (start ++ rest) = true := by
  obtain ⟨head, tail, htext, hhead, htail⟩ := isIdentifier_iff.mp hstart
  refine isIdentifier_iff.mpr ⟨head, tail ++ rest.toList, ?_, hhead, ?_⟩
  · rw [String.toList_append, htext, List.cons_append]
  · intro c hc
    rcases List.mem_append.mp hc with hc | hc
    · exact htail c hc
    · exact hrest c hc

/-- A hexadecimal digit may stand in an identifier behind its first character. -/
theorem isIdentifierTail_of_isHex {c : Char} (h : Digit.isHex c = true) :
    isIdentifierTail c = true := by
  obtain ⟨value, hvalue⟩ := Option.isSome_iff_exists.mp h
  have hrank := (Option.filter_eq_some_iff.mp hvalue).1
  unfold Digit.rank? at hrank
  have halpha : c.isAlpha = (c.isUpper || c.isLower) := rfl
  -- the classes of characters are tests of the ranges in which a rank is defined
  have hrange : ∀ low high : Char, low ≤ c ∧ c ≤ high →
      (decide (low ≤ c) && decide (c ≤ high)) = true := fun low high h => by
    rw [decide_eq_true h.1, decide_eq_true h.2, Bool.and_self]
  rw [isIdentifierTail, Char.isAlphanum, halpha, Bool.or_eq_true, Bool.or_eq_true, Bool.or_eq_true]
  split at hrank
  · rename_i hdigit
    exact Or.inl (Or.inr (hrange '0' '9' hdigit))
  · split at hrank
    · rename_i hlower
      exact Or.inl (Or.inl (Or.inr (hrange 'a' 'z' hlower)))
    · split at hrank
      · rename_i hupper
        exact Or.inl (Or.inl (Or.inl (decide_eq_true hupper)))
      · cases hrank

namespace Namer

variable {σ : Type} [DigitSource σ]

/-! ## Drawn digits -/

theorem length_drawDigits (source : σ) (n : Nat) : (drawDigits source n).1.length = n := by
  induction n generalizing source with
  | zero => rfl
  | succ n ih => exact congrArg Nat.succ (ih _)

theorem isHex_of_mem_drawDigits {source : σ} {n : Nat} {c : Char}
    (h : c ∈ (drawDigits source n).1) : Digit.isHex c = true := by
  induction n generalizing source with
  | zero => cases h
  | succ n ih =>
      rcases List.mem_cons.mp h with rfl | h
      · exact Digit.isHex_lower (Fin.isLt _)
      · exact ih h

/-! ## Generated texts -/

theorem toList_generatedText (suffix : List Char) (count : UInt32) :
    (generatedText suffix count).toList
      = generatedStart.toList ++ (suffix ++ Nat.toDigits 16 count.toNat) := by
  simp [generatedText]

/-- A generated name is an identifier. -/
theorem isIdentifier_generatedText {suffix : List Char}
    (h : ∀ c ∈ suffix, Digit.isHex c = true) (count : UInt32) :
    isIdentifier (generatedText suffix count) = true := by
  have hstart : isIdentifier generatedStart = true := by decide
  rw [generatedText, String.append_assoc]
  refine isIdentifier_append hstart ?_
  intro c hc
  rw [String.toList_append, String.toList_ofList, String.toList_ofList] at hc
  rcases List.mem_append.mp hc with hc | hc
  · exact isIdentifierTail_of_isHex (h c hc)
  · exact isIdentifierTail_of_isHex (Digit.isHex_of_mem_toDigits hc)

/-- **The count of a generated name is read back from its text**, whatever the random digits are, as
long as they are of one number. -/
theorem count_of_generatedText_eq {suffix suffix' : List Char} {count count' : UInt32}
    (hlength : suffix.length = suffix'.length)
    (h : generatedText suffix count = generatedText suffix' count') : count = count' := by
  have hchars := congrArg String.toList h
  rw [toList_generatedText, toList_generatedText] at hchars
  have hdigits := List.append_inj_right (List.append_cancel_left hchars) hlength
  have hnumber := congrArg (Digit.number 16) hdigits
  rw [Digit.number_toDigits, Digit.number_toDigits] at hnumber
  exact UInt32.toNat_inj.mp hnumber

/-- No section symbol is named like a generated name. -/
theorem generatedText_ne_section (suffix : List Char) (count : UInt32) (word : String) :
    generatedText suffix count ≠ sectionStart ++ word := by
  intro h
  have hhead := congrArg (fun text : String => text.toList.head?) h
  simp [toList_generatedText, generatedStart, sectionStart] at hhead

end Namer

end ByteEmbed
