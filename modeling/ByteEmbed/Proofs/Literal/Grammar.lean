import ByteEmbed.Proofs.Literal.Reading

/-!
# ByteEmbed.Proofs.Literal.Grammar — the bodies that are read, and what they mean.

`IsItem` lists the items of a literal body with their meanings, and `Denotes` puts items one behind
the other.  An item is judged with the text behind it at hand: a numeric escape has to be as long as
its kind allows, so where it ends is decided by what follows.  Neither relation knows of offsets, of
words that saturate, or of an order in which cases are tried.  Reading a body succeeds exactly on
the bodies that denote bytes, with these bytes as the result (`read_eq_ok_iff`).
-/

namespace ByteEmbed.Body

open Digit (isDigit number NoneAhead)

/-! ## Items -/

/-- `text` is one item when `rest` follows it, and means the bytes of `meaning`. -/
inductive IsItem : (text rest : List Char) → (meaning : List UInt8) → Prop
  /-- A character of ASCII other than the backslash and the quote means itself. -/
  | plain {c : Char} {rest : List Char} (ascii : c.val < 128) (back : c ≠ '\\') (quote : c ≠ '"') :
      IsItem [c] rest [c.val.toUInt8]
  /-- Two quotes mean nothing. -/
  | marker {rest : List Char} : IsItem ['"', '"'] rest []
  /-- A short escape means its byte. -/
  | short {c : Char} {byte : UInt8} {rest : List Char} (form : (c, byte) ∈ Spelling.shortForms) :
      IsItem ['\\', c] rest [byte]
  /-- A hexadecimal escape has at least one digit and every digit that follows. -/
  | hex {digits rest : List Char} (nonempty : digits ≠ [])
      (digit : ∀ c ∈ digits, isDigit 16 c = true) (longest : NoneAhead 16 rest)
      (fits : number 16 digits ≤ 255) :
      IsItem ('\\' :: 'x' :: digits) rest [UInt8.ofNat (number 16 digits)]
  /-- An octal escape has one to three digits, as many as follow. -/
  | octal {digits rest : List Char} (nonempty : digits ≠ [])
      (digit : ∀ c ∈ digits, isDigit 8 c = true) (atMost : digits.length ≤ 3)
      (longest : digits.length = 3 ∨ NoneAhead 8 rest) (fits : number 8 digits ≤ 255) :
      IsItem ('\\' :: digits) rest [UInt8.ofNat (number 8 digits)]

/-- The items of the grammar are read as such. -/
theorem item_of_isItem {c : Char} {text rest : List Char} {meaning : List UInt8}
    (h : IsItem (c :: text) rest meaning) (offset : Nat) :
    item offset c (text ++ rest) = .ok ⟨meaning, rest⟩ := by
  cases h with
  | plain ascii back quote => exact item_plain offset ascii back quote rest
  | marker => exact item_marker offset rest
  | short form => exact item_short offset (shortEscape?_eq_some_iff.mpr form) rest
  | @hex digits _ nonempty digit longest fits =>
      rw [List.cons_append, item_hex offset digits rest nonempty digit longest,
        if_pos (Nat.lt_succ_of_le fits)]
  | octal nonempty digit atMost longest fits =>
      obtain ⟨first, digits, rfl⟩ := List.exists_cons_of_ne_nil nonempty
      have hlength : digits.length + 1 ≤ 3 := atMost
      have hlongest : digits.length = 2 ∨ NoneAhead 8 rest := by
        rcases longest with hthree | hnone
        · exact Or.inl (Nat.succ.inj hthree)
        · exact Or.inr hnone
      rw [List.cons_append, item_octal offset first digits rest (digit first List.mem_cons_self)
        (fun d hd => digit d (List.mem_cons_of_mem _ hd)) (by omega) hlongest,
        if_pos (Nat.lt_succ_of_le fits)]

/-! ## What is read is an item -/

theorem isItem_of_hexEscape {offset : Nat} {text : List Char} {i : Item}
    (h : hexEscape offset text = .ok i) :
    ∃ digits, text = digits ++ i.rest ∧ IsItem ('\\' :: 'x' :: digits) i.rest i.meaning := by
  obtain ⟨digits, rest, rfl, hdigits, hnone⟩ := Digit.exists_span 16 text
  by_cases hempty : digits = []
  · -- without a digit the escape is refused
    have hrun := Digit.takeRun_append (digits ++ rest).length hdigits (by simp) (Or.inr hnone)
    rw [hexEscape, hrun, if_pos (by simp [hempty])] at h
    cases h
  · have hitem := item_hex offset digits rest hempty hdigits hnone
    have hescape : hexEscape offset (digits ++ rest) = _ := hitem
    rw [hescape] at h
    split at h
    · rename_i hfits
      cases h
      exact ⟨digits, rfl, .hex hempty hdigits hnone (Nat.le_of_lt_succ hfits)⟩
    · cases h

theorem isItem_of_octal {offset : Nat} {c : Char} {text : List Char} {i : Item}
    (hc : isDigit 8 c = true) (h : item offset '\\' (c :: text) = .ok i) :
    ∃ digits, text = digits ++ i.rest ∧ IsItem ('\\' :: c :: digits) i.rest i.meaning := by
  obtain ⟨digits, rest, rfl, hdigits, hlength, hend⟩ := Digit.exists_run 8 2 text
  rw [item_octal offset c digits rest hc hdigits hlength hend] at h
  split at h
  · rename_i hfits
    cases h
    refine ⟨digits, rfl, .octal (by simp) ?_ (Nat.succ_le_succ hlength) ?_
      (Nat.le_of_lt_succ hfits)⟩
    · intro d hd
      rcases List.mem_cons.mp hd with rfl | hd
      · exact hc
      · exact hdigits d hd
    · rcases hend with htwo | hnone
      · exact Or.inl (congrArg Nat.succ htwo)
      · exact Or.inr hnone
  · cases h

theorem isItem_of_escape {offset : Nat} {text : List Char} {i : Item}
    (h : escape offset text = .ok i) :
    ∃ body, text = body ++ i.rest ∧ IsItem ('\\' :: body) i.rest i.meaning := by
  cases text with
  | nil => cases h
  | cons c text =>
      have hitem : item offset '\\' (c :: text) = .ok i := h
      rw [escape] at h
      split at h
      · rename_i byte hshort
        cases h
        exact ⟨[c], rfl, .short (shortEscape?_eq_some_iff.mp hshort)⟩
      · split at h
        · rename_i hx
          obtain ⟨digits, rfl, hdigits⟩ := isItem_of_hexEscape h
          exact ⟨c :: digits, rfl, hx ▸ hdigits⟩
        · split at h
          · rename_i first hfirst
            obtain ⟨digits, rfl, hdigits⟩ :=
              isItem_of_octal (Digit.isDigit_of_value?_eq_some hfirst) hitem
            exact ⟨c :: digits, rfl, hdigits⟩
          · cases h

theorem isItem_of_item {offset : Nat} {c : Char} {text : List Char} {i : Item}
    (h : item offset c text = .ok i) :
    ∃ body, text = body ++ i.rest ∧ IsItem (c :: body) i.rest i.meaning := by
  unfold item at h
  split at h
  · rename_i hback
    rw [hback]
    exact isItem_of_escape h
  · rename_i hback
    split at h
    · rename_i hquote
      split at h
      · cases h
        exact ⟨['"'], rfl, hquote ▸ .marker⟩
      · cases h
    · rename_i hquote
      split at h
      · rename_i hascii
        cases h
        exact ⟨[], rfl, .plain hascii hback hquote⟩
      · cases h

/-! ## Whole bodies -/

/-- `body` is items one behind the other, and `bytes` are their meanings in order. -/
inductive Denotes : (body : List Char) → (bytes : List UInt8) → Prop
  | nil : Denotes [] []
  | cons {text rest : List Char} {meaning bytes : List UInt8}
      (item : IsItem text rest meaning) (following : Denotes rest bytes) :
      Denotes (text ++ rest) (meaning ++ bytes)

theorem IsItem.ne_nil {text rest : List Char} {meaning : List UInt8}
    (h : IsItem text rest meaning) : text ≠ [] := by
  cases h <;> exact List.cons_ne_nil _ _

theorem reads_of_denotes {body : List Char} {bytes : List UInt8} (h : Denotes body bytes) :
    Reads body bytes := by
  induction h with
  | nil => exact Reads.nil
  | cons hitem _ ih =>
      obtain ⟨c, text, rfl⟩ := List.exists_cons_of_ne_nil hitem.ne_nil
      exact Reads.cons (item_of_isItem hitem) ih

theorem denotes_of_bytesFrom {offset : Nat} {body : List Char} {bytes : List UInt8}
    (h : bytesFrom offset body = .ok bytes) : Denotes body bytes := by
  -- an item is never empty, so what it leaves is shorter
  induction hlength : body.length using Nat.strongRecOn generalizing offset body bytes with
  | ind n ih =>
      cases body with
      | nil =>
          rw [bytesFrom] at h
          cases h
          exact .nil
      | cons c text =>
          obtain ⟨i, offset', following, hitem, hfollowing, rfl⟩ := bytesFrom_cons_eq_ok h
          obtain ⟨head, hsplit, hisItem⟩ := isItem_of_item hitem
          have hshorter : i.rest.length < n := by
            rw [← hlength, List.length_cons]
            exact Nat.lt_succ_of_le (length_rest_item_le hitem)
          have hbody : c :: text = (c :: head) ++ i.rest := by rw [hsplit, List.cons_append]
          rw [hbody]
          exact .cons hisItem (ih _ hshorter hfollowing rfl)

/-- **The grammar of literal bodies.** A body is read as some bytes exactly when it is a sequence of
items, each as long as can be, whose meanings in order are these bytes. -/
theorem read_eq_ok_iff (body : String) (bytes : List UInt8) :
    read body = .ok bytes ↔ Denotes body.toList bytes := by
  constructor
  · exact denotes_of_bytesFrom
  · intro h
    exact reads_of_denotes h 0

end ByteEmbed.Body
