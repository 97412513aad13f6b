import ByteEmbed.Proofs.Literal.Grammar
import ByteEmbed.Proofs.Text.Utf8

/-!
# ByteEmbed.Proofs.Literal.Offence — where reading a body stops, and what stands there.

`Offends` says of a text what each refusal claims to have met at its start, without an offset.  A
body is refused exactly when it is a body that is read, followed by a text that offends; the refusal
says how that text offends, and its offset is the number of bytes in front (`read_refused`).  The
two parts do not disturb each other: no offence starts with a digit, and an item ends in front of
anything else just as it ends in front of nothing (`bytesFrom_append`).  For the same reason a
marker separates what stands on its two sides (`read_around_marker`).
-/

namespace ByteEmbed

namespace BodyError

/-- The offset that a refusal names. -/
def offset : BodyError → Nat
  | danglingBackslash offset | unknownEscape _ offset | noHexDigits offset | tooLarge offset
  | loneQuote offset | notAscii _ offset => offset

/-- The same refusal at an offset that is greater by `distance`. -/
def later (distance : Nat) : BodyError → BodyError
  | danglingBackslash offset => danglingBackslash (offset + distance)
  | unknownEscape character offset => unknownEscape character (offset + distance)
  | noHexDigits offset => noHexDigits (offset + distance)
  | tooLarge offset => tooLarge (offset + distance)
  | loneQuote offset => loneQuote (offset + distance)
  | notAscii character offset => notAscii character (offset + distance)

theorem offset_later (distance : Nat) (e : BodyError) :
    (e.later distance).offset = e.offset + distance := by
  cases e <;> rfl

end BodyError

namespace Body

open Digit (isDigit number NoneAhead)

/-! ## Offences -/

/-- `text` starts with what the refusal says, at whatever offset that may be. -/
inductive Offends : (text : List Char) → BodyError → Prop
  /-- A backslash ends the text. -/
  | danglingBackslash {offset : Nat} : Offends ['\\'] (.danglingBackslash offset)
  /-- The character behind a backslash starts no escape. -/
  | unknownEscape {c : Char} {rest : List Char} {offset : Nat}
      (short : ∀ byte, (c, byte) ∉ Spelling.shortForms) (hex : c ≠ 'x')
      (octal : isDigit 8 c = false) : Offends ('\\' :: c :: rest) (.unknownEscape c offset)
  /-- A hexadecimal escape has no digit. -/
  | noHexDigits {rest : List Char} {offset : Nat} (none : NoneAhead 16 rest) :
      Offends ('\\' :: 'x' :: rest) (.noHexDigits offset)
  /-- A hexadecimal escape, with every digit that follows, is worth more than a byte holds. -/
  | hexTooLarge {digits rest : List Char} {offset : Nat} (digit : ∀ c ∈ digits, isDigit 16 c = true)
      (longest : NoneAhead 16 rest) (large : 255 < number 16 digits) :
      Offends ('\\' :: 'x' :: (digits ++ rest)) (.tooLarge offset)
  /-- An octal escape, with as many digits as follow up to three, is worth more than a byte
  holds. -/
  | octalTooLarge {digits rest : List Char} {offset : Nat}
      (digit : ∀ c ∈ digits, isDigit 8 c = true) (atMost : digits.length ≤ 3)
      (longest : digits.length = 3 ∨ NoneAhead 8 rest) (large : 255 < number 8 digits) :
      Offends ('\\' :: (digits ++ rest)) (.tooLarge offset)
  /-- A quote is not followed by a second one. -/
  | loneQuote {rest : List Char} {offset : Nat} (single : rest.head? ≠ some '"') :
      Offends ('"' :: rest) (.loneQuote offset)
  /-- A character outside of ASCII. -/
  | notAscii {c : Char} {rest : List Char} {offset : Nat} (outside : 128 ≤ c.val) :
      Offends (c :: rest) (.notAscii c offset)

theorem Offends.ne_nil {text : List Char} {e : BodyError} (h : Offends text e) : text ≠ [] := by
  cases h <;> exact List.cons_ne_nil _ _

/-- No offence starts with a digit. -/
theorem Offends.noneAhead {text : List Char} {e : BodyError} (h : Offends text e) :
    NoneAhead 16 text := by
  have hback : isDigit 16 '\\' = false := by decide
  have hquote : isDigit 16 '"' = false := by decide
  intro c hc
  cases h with
  | @notAscii first rest offset outside =>
      obtain rfl : first = c := Option.some.inj hc
      cases hdigit : isDigit 16 first with
      | false => rfl
      | true => exact absurd (Digit.ascii_of_isDigit hdigit) (UInt32.not_lt.mpr outside)
  | loneQuote single =>
      obtain rfl := Option.some.inj hc
      exact hquote
  | _ =>
      obtain rfl := Option.some.inj hc
      exact hback

theorem Offends.later {text : List Char} {e : BodyError} (h : Offends text e) (distance : Nat) :
    Offends text (e.later distance) := by
  cases h with
  | danglingBackslash => exact .danglingBackslash
  | unknownEscape short hex octal => exact .unknownEscape short hex octal
  | noHexDigits none => exact .noHexDigits none
  | hexTooLarge digit longest large => exact .hexTooLarge digit longest large
  | octalTooLarge digit atMost longest large => exact .octalTooLarge digit atMost longest large
  | loneQuote single => exact .loneQuote single
  | notAscii outside => exact .notAscii outside

/-! ## An item is refused exactly for an offence -/

section

variable {offset : Nat} {c : Char} {text : List Char} {e : BodyError}

theorem shortEscape?_eq_none_iff :
    shortEscape? c = none ↔ ∀ byte, (c, byte) ∉ Spelling.shortForms := by
  rw [Option.eq_none_iff_forall_ne_some]
  exact forall_congr' fun byte => not_congr shortEscape?_eq_some_iff

theorem item_noHexDigits (offset : Nat) {rest : List Char} (h : NoneAhead 16 rest) :
    item offset '\\' ('x' :: rest) = .error (.noHexDigits offset) := by
  have hnone : ∀ c ∈ ([] : List Char), isDigit 16 c = true := by simp
  have hrun := Digit.takeRun_append rest.length hnone (Nat.zero_le _) (Or.inr h)
  rw [List.nil_append] at hrun
  show hexEscape offset rest = _
  rw [hexEscape, hrun]
  rfl

/-- What offends is refused as an item, for that offence. -/
theorem item_of_offends (h : Offends (c :: text) e) : item e.offset c text = .error e := by
  cases h with
  | danglingBackslash => rfl
  | unknownEscape short hex octal =>
      have hnone := Digit.value?_eq_none_iff.mpr octal
      simp [item, escape, shortEscape?_eq_none_iff.mpr short, hex, hnone, BodyError.offset]
  | noHexDigits none => exact item_noHexDigits _ none
  | @hexTooLarge digits rest _ digit longest large =>
      have hne : digits ≠ [] := by
        rintro rfl
        cases large
      rw [item_hex _ digits rest hne digit longest, if_neg (Nat.not_lt.mpr large)]
      rfl
  | @octalTooLarge digits rest _ digit atMost longest large =>
      have hne : digits ≠ [] := by
        rintro rfl
        cases large
      obtain ⟨first, digits, rfl⟩ := List.exists_cons_of_ne_nil hne
      rw [List.length_cons] at atMost longest
      rw [List.cons_append, item_octal _ first digits rest (digit first List.mem_cons_self)
        (fun d hd => digit d (List.mem_cons_of_mem _ hd)) (by omega)
        (longest.imp_left Nat.succ.inj), if_neg (Nat.not_lt.mpr large)]
      rfl
  | loneQuote single =>
      unfold item
      rw [if_neg (by decide), if_pos rfl]
      split
      · exact absurd rfl single
      · rfl
  | notAscii outside =>
      have hascii : ¬ c.val < 128 := UInt32.not_lt.mpr outside
      have hback : c ≠ '\\' := by
        rintro rfl
        exact hascii (by decide)
      have hquote : c ≠ '"' := by
        rintro rfl
        exact hascii (by decide)
      simp [item, hback, hquote, hascii, BodyError.offset]

theorem offends_of_hexEscape (h : hexEscape offset text = .error e) :
    Offends ('\\' :: 'x' :: text) e ∧ e.offset = offset := by
  obtain ⟨digits, rest, rfl, hdigits, hnone⟩ := Digit.exists_span 16 text
  by_cases hempty : digits = []
  · rw [hempty, List.nil_append] at h ⊢
    have hitem : hexEscape offset rest = _ := item_noHexDigits offset hnone
    rw [hitem] at h
    cases h
    exact ⟨.noHexDigits hnone, rfl⟩
  · have hitem : hexEscape offset (digits ++ rest) = _ :=
      item_hex offset digits rest hempty hdigits hnone
    rw [hitem] at h
    split at h
    · cases h
    · rename_i hlarge
      cases h
      exact ⟨.hexTooLarge hdigits hnone (Nat.not_lt.mp hlarge), rfl⟩

theorem offends_of_octal {first : Char} (hfirst : isDigit 8 first = true)
    (h : item offset '\\' (first :: text) = .error e) :
    Offends ('\\' :: first :: text) e ∧ e.offset = offset := by
  obtain ⟨digits, rest, rfl, hdigits, hlength, hend⟩ := Digit.exists_run 8 2 text
  rw [item_octal offset first digits rest hfirst hdigits hlength hend] at h
  split at h
  · cases h
  · rename_i hlarge
    cases h
    have hall : ∀ d ∈ first :: digits, isDigit 8 d = true := by
      intro d hd
      rcases List.mem_cons.mp hd with rfl | hd
      · exact hfirst
      · exact hdigits d hd
    exact ⟨.octalTooLarge hall (Nat.succ_le_succ hlength) (hend.imp_left (congrArg Nat.succ))
      (Nat.not_lt.mp hlarge), rfl⟩

theorem offends_of_escape (h : escape offset text = .error e) :
    Offends ('\\' :: text) e ∧ e.offset = offset := by
  cases text with
  | nil =>
      cases h
      exact ⟨.danglingBackslash, rfl⟩
  | cons c text =>
      have hitem : item offset '\\' (c :: text) = .error e := h
      rw [escape] at h
      split at h
      · cases h
      · rename_i hshort
        split at h
        · rename_i hx
          exact hx ▸ offends_of_hexEscape h
        · rename_i hx
          split at h
          · rename_i first hvalue
            exact offends_of_octal (Digit.isDigit_of_value?_eq_some hvalue) hitem
          · rename_i hvalue
            cases h
            exact ⟨.unknownEscape (shortEscape?_eq_none_iff.mp hshort) hx
              (Digit.value?_eq_none_iff.mp hvalue), rfl⟩

theorem item_eq_error_iff :
    item offset c text = .error e ↔ Offends (c :: text) e ∧ e.offset = offset := by
  constructor
  · intro h
    unfold item at h
    split at h
    · rename_i hback
      exact hback ▸ offends_of_escape h
    · split at h
      · rename_i hquote
        split at h
        · cases h
        · rename_i hsingle
          cases h
          refine ⟨hquote ▸ .loneQuote ?_, rfl⟩
          intro hhead
          obtain ⟨rest, rfl⟩ := List.head?_eq_some_iff.mp hhead
          exact hsingle rest rfl
      · split at h
        · cases h
        · rename_i hascii
          cases h
          exact ⟨.notAscii (UInt32.not_lt.mp hascii), rfl⟩
  · rintro ⟨h, rfl⟩
    exact item_of_offends h

end

/-! ## What stands behind a body that is read -/

/-- An item depends on what follows only through the digits that may be ahead. -/
theorem IsItem.of_noneAhead {text rest rest' : List Char} {meaning : List UInt8}
    (hahead : ∀ radix ≤ 16, NoneAhead radix rest → NoneAhead radix rest')
    (h : IsItem text rest meaning) : IsItem text rest' meaning := by
  cases h with
  | plain ascii back quote => exact .plain ascii back quote
  | marker => exact .marker
  | short form => exact .short form
  | hex nonempty digit longest fits =>
      exact .hex nonempty digit (hahead 16 (by decide) longest) fits
  | octal nonempty digit atMost longest fits =>
      exact .octal nonempty digit atMost (longest.imp_right (hahead 8 (by decide))) fits

/-- The text behind an item is read as it would be on its own, further on. -/
theorem bytesFrom_item {text rest : List Char} {meaning : List UInt8}
    (h : IsItem text rest meaning) (offset : Nat) :
    bytesFrom offset (text ++ rest)
      = (bytesFrom (offset + text.length) rest).map (meaning ++ ·) := by
  obtain ⟨c, text, rfl⟩ := List.exists_cons_of_ne_nil h.ne_nil
  have hlength : (text ++ rest).length + 1 - rest.length = (c :: text).length := by
    rw [List.length_append, List.length_cons]
    omega
  rw [List.cons_append, bytesFrom_cons (item_of_isItem h offset), hlength]

/-- So is the text behind any items, if it does not start with a digit that the last could take. -/
theorem bytesFrom_append {body next : List Char} {bytes : List UInt8} (h : Denotes body bytes)
    (hnext : NoneAhead 16 next) (offset : Nat) :
    bytesFrom offset (body ++ next)
      = (bytesFrom (offset + body.length) next).map (bytes ++ ·) := by
  induction h generalizing offset with
  | nil =>
      show bytesFrom offset next = _
      cases bytesFrom offset next <;> rfl
  | @cons text rest meaning bytes hitem _ ih =>
      have hfollowed : IsItem text (rest ++ next) meaning := by
        apply hitem.of_noneAhead
        intro radix hradix
        exact (Digit.noneAhead_append_iff (hnext.mono hradix)).mpr
      rw [List.append_assoc, bytesFrom_item hfollowed, ih, List.length_append, ← Nat.add_assoc]
      cases bytesFrom (offset + text.length + rest.length) next with
      | error e => rfl
      | ok following =>
          show Except.ok (meaning ++ (bytes ++ following)) = .ok (meaning ++ bytes ++ following)
          rw [List.append_assoc]

/-- Every character of an item is of ASCII. -/
theorem IsItem.ascii {text rest : List Char} {meaning : List UInt8}
    (h : IsItem text rest meaning) : ∀ c ∈ text, c.val < 128 := by
  have hback : '\\'.val < 128 := by decide
  have hforms : ∀ form ∈ Spelling.shortForms, form.1.val < 128 := by decide
  cases h with
  | plain ascii back quote => simpa using ascii
  | marker => simp
  | short form => simpa using hforms _ form
  | hex nonempty digit longest fits =>
      simp only [List.forall_mem_cons]
      exact ⟨hback, by decide, fun c hc => Digit.ascii_of_isDigit (digit c hc)⟩
  | octal nonempty digit atMost longest fits =>
      simp only [List.forall_mem_cons]
      exact ⟨hback, fun c hc => Digit.ascii_of_isDigit (digit c hc)⟩

theorem Denotes.ascii {body : List Char} {bytes : List UInt8} (h : Denotes body bytes) :
    ∀ c ∈ body, c.val < 128 := by
  induction h with
  | nil => simp
  | cons hitem _ ih =>
      intro c hc
      rcases List.mem_append.mp hc with hc | hc
      · exact hitem.ascii c hc
      · exact ih c hc

/-- A body that is read has one byte to a character. -/
theorem utf8ByteSize_of_read {body : String} {bytes : List UInt8} (h : read body = .ok bytes) :
    body.utf8ByteSize = body.toList.length := by
  rw [Text.Utf8.utf8ByteSize_of_ascii (denotes_of_bytesFrom h).ascii, String.length_toList]

/-! ## Refused bodies -/

/-- A text is refused for what offends behind the items that are read. -/
theorem bytesFrom_of_offends {before after : List Char} {bytes : List UInt8} {e : BodyError}
    (hbefore : Denotes before bytes) (hafter : Offends after e) {offset : Nat}
    (hoffset : offset + before.length = e.offset) :
    bytesFrom offset (before ++ after) = .error e := by
  obtain ⟨c, text, rfl⟩ := List.exists_cons_of_ne_nil hafter.ne_nil
  have hrefused : bytesFrom e.offset (c :: text) = .error e :=
    bytesFrom_cons_error (item_of_offends hafter)
  rw [bytesFrom_append hbefore hafter.noneAhead, hoffset, hrefused]
  rfl

/-- What a text is refused for offends, and items that are read stand in front of it. -/
theorem exists_offends_of_bytesFrom {offset : Nat} {text : List Char} {e : BodyError}
    (h : bytesFrom offset text = .error e) :
    ∃ before after bytes, text = before ++ after ∧ offset + before.length = e.offset
      ∧ Denotes before bytes ∧ Offends after e := by
  -- an item is never empty, so what it leaves is shorter
  induction hcount : text.length using Nat.strongRecOn generalizing offset text with
  | ind n ih =>
      cases text with
      | nil =>
          rw [bytesFrom] at h
          cases h
      | cons c text =>
          cases hitem : item offset c text with
          | error e' =>
              rw [bytesFrom_cons_error hitem] at h
              cases h
              obtain ⟨hoffends, hoffset⟩ := item_eq_error_iff.mp hitem
              exact ⟨[], c :: text, [], rfl, hoffset.symm, .nil, hoffends⟩
          | ok i =>
              obtain ⟨head, rfl, hhead⟩ := isItem_of_item hitem
              have hshorter : i.rest.length < n := by
                rw [← hcount, List.length_cons, List.length_append]
                omega
              rw [← List.cons_append, bytesFrom_item hhead] at h
              cases hresult : bytesFrom (offset + (c :: head).length) i.rest with
              | ok following =>
                  rw [hresult] at h
                  cases h
              | error e' =>
                  rw [hresult] at h
                  cases h
                  obtain ⟨before, after, bytes, hrest, hoffset, hbefore, hoffends⟩ :=
                    ih _ hshorter hresult rfl
                  -- the item ends where it does also without the offence
                  have hends : IsItem (c :: head) before i.meaning := by
                    apply hhead.of_noneAhead
                    intro radix hradix
                    rw [hrest]
                    exact (Digit.noneAhead_append_iff (hoffends.noneAhead.mono hradix)).mp
                  refine ⟨(c :: head) ++ before, after, i.meaning ++ bytes, ?_, ?_,
                    .cons hends hbefore, hoffends⟩
                  · rw [hrest, List.append_assoc, List.cons_append]
                  · rw [← hoffset, List.length_append, Nat.add_assoc]

/-- **Where a body is refused, and what for.** A body is refused exactly when it is a body that is
read, followed by a text that offends.  The refusal says how that text offends, and its offset is
where the first part ends, counted in bytes. -/
theorem read_refused (body : String) (e : BodyError) :
    read body = .error e
      ↔ ∃ before after bytes, body = before ++ after ∧ before.utf8ByteSize = e.offset
        ∧ read before = .ok bytes ∧ Offends after.toList e := by
  constructor
  · intro h
    obtain ⟨before, after, bytes, hbody, hoffset, hbefore, hoffends⟩ :=
      exists_offends_of_bytesFrom h
    have hread : read (String.ofList before) = .ok bytes := by
      rw [read, String.toList_ofList]
      exact reads_of_denotes hbefore 0
    refine ⟨String.ofList before, String.ofList after, bytes, ?_, ?_, hread, ?_⟩
    · rw [← String.ofList_append, ← hbody, String.ofList_toList]
    · rw [utf8ByteSize_of_read hread, String.toList_ofList, ← hoffset, Nat.zero_add]
    · rwa [String.toList_ofList]
  · rintro ⟨before, after, bytes, rfl, hoffset, hread, hoffends⟩
    rw [utf8ByteSize_of_read hread] at hoffset
    rw [read, String.toList_append]
    apply bytesFrom_of_offends (denotes_of_bytesFrom hread) hoffends
    rw [Nat.zero_add, hoffset]

/-- The escape at fault starts behind a marker, and all its digits have been read when its value is
found too large. -/
example : read "\\0\"\"\\x00100!" = .error (.tooLarge 4) := by cbv

/-! ## Behind a marker -/

/-- A refusal goes along with its text. -/
theorem bytesFrom_later {offset : Nat} {text : List Char} {e : BodyError}
    (h : bytesFrom offset text = .error e) (distance : Nat) :
    bytesFrom (offset + distance) text = .error (e.later distance) := by
  obtain ⟨before, after, bytes, rfl, hoffset, hbefore, hoffends⟩ := exists_offends_of_bytesFrom h
  apply bytesFrom_of_offends hbefore (hoffends.later distance)
  rw [BodyError.offset_later]
  omega

/-- A text is read further on as it would be on its own, but for the offset of a refusal. -/
theorem bytesFrom_eq_mapError (offset : Nat) (text : List Char) :
    bytesFrom offset text = (bytesFrom 0 text).mapError (·.later offset) := by
  cases hresult : bytesFrom 0 text with
  | ok bytes => exact reads_of_denotes (denotes_of_bytesFrom hresult) offset
  | error e =>
      have hlater := bytesFrom_later hresult offset
      rwa [Nat.zero_add] at hlater

/-- Behind items and a marker, the last item has nothing to take. -/
theorem bytesFrom_marker {body : List Char} {bytes : List UInt8} (h : Denotes body bytes)
    (offset : Nat) (text : List Char) :
    bytesFrom offset (body ++ '"' :: '"' :: text)
      = (bytesFrom (offset + (body.length + 2)) text).map (bytes ++ ·) := by
  have hmarker : NoneAhead 16 ('"' :: '"' :: text) := by
    rintro c ⟨rfl⟩
    decide
  have hitem : bytesFrom (offset + body.length) ('"' :: '"' :: text)
      = (bytesFrom (offset + body.length + 2) text).map ([] ++ ·) := bytesFrom_item .marker _
  rw [bytesFrom_append h hmarker, hitem, ← Nat.add_assoc]
  cases bytesFrom (offset + body.length + 2) text <;> rfl

/-- **A marker separates.** Behind a body that is read and a marker, any text is read as it would be
on its own: its bytes follow those of the body, or it is refused for the same cause, further on by
what stands in front of it. -/
theorem read_around_marker {before : String} {bytes : List UInt8} (h : read before = .ok bytes)
    (after : String) :
    (∀ following, read after = .ok following →
      read (before ++ Spelling.marker ++ after) = .ok (bytes ++ following))
    ∧ ∀ e, read after = .error e →
      read (before ++ Spelling.marker ++ after) = .error (e.later (before.utf8ByteSize + 2)) := by
  have htext : read (before ++ Spelling.marker ++ after)
      = (bytesFrom (0 + (before.utf8ByteSize + 2)) after.toList).map (bytes ++ ·) := by
    rw [utf8ByteSize_of_read h, ← bytesFrom_marker (denotes_of_bytesFrom h)]
    simp [read]
  rw [htext]
  refine ⟨?_, ?_⟩
  · intro following hafter
    rw [reads_of_denotes (denotes_of_bytesFrom hafter)]
    rfl
  · intro e hafter
    rw [bytesFrom_later hafter]
    rfl

/-- An octal escape in front of a digit, and an escape that is refused behind the marker. -/
theorem read_around_marker_octal :
    read "a\\0" = .ok [0x61, 0x00]
    ∧ read ("a\\0" ++ Spelling.marker ++ "7") = .ok ([0x61, 0x00] ++ [0x37])
    ∧ read "7\\é" = .error (.unknownEscape 'é' 1)
    ∧ read ("a\\0" ++ Spelling.marker ++ "7\\é") = .error (.unknownEscape 'é' 6) := by
  have hread : read "a\\0" = .ok [0x61, 0x00] := by cbv
  have hseven : read "7" = .ok [0x37] := by cbv
  have hrefused : read "7\\é" = .error (.unknownEscape 'é' 1) := by cbv
  exact ⟨hread, (read_around_marker hread "7").1 _ hseven, hrefused,
    (read_around_marker hread "7\\é").2 _ hrefused⟩

end Body

end ByteEmbed
