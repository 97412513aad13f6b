import ByteEmbed.Proofs.CLiteral.Verbatim

/-!
# ByteEmbed.Proofs.CLiteral.Weight — what bytes in literals cost in characters.

Whatever a text of literals means, it has to be paid for in characters.  Counted in half bytes, a
character costs two, a quote or a backslash one, and a line feed nothing: an escape is a backslash
and one character more, and only a quote can be as cheap as a backslash.  So every byte takes a
weight of two, and every literal two more for the quotes around it (`weigh_literals?`).  The bound
knows nothing of what the text means or where its literals end; it tells that a text is too light
to be literals of so many bytes.
-/

namespace ByteEmbed.CLiteral

/-! ## Characters -/

/-- The weight of a character, counted in half bytes. -/
def weight (c : Char) : Nat :=
  if c = '\n' then 0 else if c = '"' ∨ c = '\\' then 1 else 2

/-- The weight of a text. -/
def weigh (text : List Char) : Nat := text.foldr (fun c n => weight c + n) 0

@[simp] theorem weigh_nil : weigh [] = 0 := rfl

@[simp] theorem weigh_cons (c : Char) (text : List Char) :
    weigh (c :: text) = weight c + weigh text := rfl

@[simp] theorem weigh_append (text other : List Char) :
    weigh (text ++ other) = weigh text + weigh other := by
  induction text with
  | nil => rw [List.nil_append, weigh_nil, Nat.zero_add]
  | cons c text ih => rw [List.cons_append, weigh_cons, weigh_cons, ih, Nat.add_assoc]

theorem weight_of_ne {c : Char} (hquote : c ≠ '"') (hback : c ≠ '\\') (hfeed : c ≠ '\n') :
    weight c = 2 := by
  rw [weight, if_neg hfeed, if_neg (not_or.mpr ⟨hquote, hback⟩)]

/-- Only a line feed weighs nothing. -/
theorem weight_pos {c : Char} (hfeed : c ≠ '\n') : 1 ≤ weight c := by
  rw [weight, if_neg hfeed]
  split <;> decide

/-! ## Bodies -/

/-- A body that has been cut out of a text: no quote stands in it but behind a backslash, no line
feed either, and it does not end within an escape. -/
inductive Closes : List Char → Prop where
  | nil : Closes []
  | escape (c : Char) {body : List Char} (rest : Closes body) : Closes ('\\' :: c :: body)
  | plain {c : Char} {body : List Char} (quote : c ≠ '"') (backslash : c ≠ '\\') (feed : c ≠ '\n')
      (rest : Closes body) : Closes (c :: body)

theorem closes_of_body? {text body rest : List Char} (h : body? text = some (body, rest)) :
    Closes body := by
  induction text using body?.induct generalizing body with
  | case1 => cases h
  | case2 text =>
      cases h
      exact .nil
  | case3 c text ih =>
      obtain ⟨⟨b, r⟩, hbody, heq⟩ := Option.map_eq_some_iff.mp h
      simp only [Prod.mk.injEq] at heq
      obtain ⟨rfl, rfl⟩ := heq
      exact .escape c (ih hbody)
  | case4 text hquote hescape => simp [body?] at h
  | case5 c text hquote hescape hfeed ih =>
      simp only [body?, hfeed, if_false] at h
      obtain ⟨⟨b, r⟩, hbody, heq⟩ := Option.map_eq_some_iff.mp h
      simp only [Prod.mk.injEq] at heq
      obtain ⟨rfl, rfl⟩ := heq
      refine .plain (fun hc => hquote hc) ?_ hfeed (ih hbody)
      rintro rfl
      -- a backslash that starts no escape is the last character, and nothing closes the literal
      cases text with
      | nil => cases hbody
      | cons d text => exact hescape d text rfl rfl

theorem backslash_not_mem_takeWhile {radix : Nat} (h : Digit.isDigit radix '\\' = false)
    (text : List Char) : '\\' ∉ text.takeWhile (Digit.isDigit radix) := by
  intro hmem
  have hdigit := List.all_eq_true.mp List.all_takeWhile _ hmem
  rw [h] at hdigit
  cases hdigit

/-- An escape means a byte, and what is behind its digits means the bytes that follow. -/
theorem exists_of_meaning?_escape {c : Char} {text : List Char} {bytes : List UInt8}
    (h : meaning? ('\\' :: c :: text) = some bytes) :
    c ≠ '\n' ∧ ∃ (digits rest : List Char) (byte : UInt8) (following : List UInt8),
      text = digits ++ rest ∧ '\\' ∉ digits
        ∧ meaning? rest = some following ∧ bytes = byte :: following := by
  by_cases hhex : c = 'x'
  · subst hhex
    simp only [meaning?, Option.bind_eq_bind, Option.bind_eq_some_iff, Option.pure_def,
      Option.some.injEq] at h
    obtain ⟨byte, -, following, hfollowing, rfl⟩ := h
    have hdigits : text.takeWhile (Digit.isDigit 16) <+: text := List.takeWhile_prefix _
    exact ⟨by decide, _, _, byte, following, (List.prefix_iff_eq_append.mp hdigits).symm,
      backslash_not_mem_takeWhile (by decide) text, hfollowing, rfl⟩
  by_cases hdigit : Digit.isDigit 8 c = true
  · rw [meaning?, if_pos hdigit] at h
    · simp only [Option.bind_eq_bind, Option.bind_eq_some_iff, Option.pure_def,
        Option.some.injEq] at h
      obtain ⟨byte, -, following, hfollowing, rfl⟩ := h
      have hdigits : (text.take 2).takeWhile (Digit.isDigit 8) <+: text :=
        (List.takeWhile_prefix _).trans (List.take_prefix 2 text)
      have hfeed : c ≠ '\n' := by
        rintro rfl
        cases hdigit
      exact ⟨hfeed, _, _, byte, following, (List.prefix_iff_eq_append.mp hdigits).symm,
        backslash_not_mem_takeWhile (by decide) _, hfollowing, rfl⟩
    · exact hhex
  · rw [meaning?, if_neg hdigit] at h
    · simp only [Option.bind_eq_bind, Option.bind_eq_some_iff, Option.pure_def,
        Option.some.injEq] at h
      obtain ⟨byte, hbyte, following, hfollowing, rfl⟩ := h
      have hfeed : c ≠ '\n' := by
        rintro rfl
        cases hbyte
      exact ⟨hfeed, [], text, byte, following, rfl, List.not_mem_nil, hfollowing, rfl⟩
    · exact hhex

/-- A character that starts no escape means its byte. -/
theorem exists_of_meaning?_plain {c : Char} {text : List Char} {bytes : List UInt8}
    (hback : c ≠ '\\') (h : meaning? (c :: text) = some bytes) :
    ∃ (byte : UInt8) (following : List UInt8),
      meaning? text = some following ∧ bytes = byte :: following := by
  rw [meaning?] at h
  · simp only [Option.bind_eq_bind, Option.bind_eq_some_iff, Option.pure_def,
      Option.some.injEq] at h
    obtain ⟨byte, -, following, hfollowing, rfl⟩ := h
    exact ⟨byte, following, hfollowing, rfl⟩
  · exact fun _ heq _ => hback heq
  · exact fun _ _ heq _ => hback heq

/-- What stands behind the digits of an escape is a body again. -/
theorem Closes.behind {digits rest : List Char} (h : Closes (digits ++ rest))
    (hback : '\\' ∉ digits) : Closes rest := by
  induction digits with
  | nil => exact h
  | cons c digits ih =>
      rw [List.mem_cons, not_or] at hback
      rw [List.cons_append] at h
      generalize htext : digits ++ rest = text at h ih
      cases h with
      | escape => exact absurd rfl hback.1
      | plain quote backslash feed htail => exact ih htail hback.2

/-- Every byte that a body means takes a weight of two. -/
theorem weigh_meaning? {body : List Char} {bytes : List UInt8} (hcloses : Closes body)
    (h : meaning? body = some bytes) : 2 * bytes.length ≤ weigh body := by
  -- an escape takes its digits with it, so the induction is on the length and not on the body
  induction hlength : body.length using Nat.strong_induction_on generalizing body bytes with
  | _ n ih =>
      subst hlength
      cases hcloses with
      | nil =>
          rw [meaning?] at h
          cases h
          exact Nat.zero_le _
      | escape c hrest =>
          obtain ⟨hfeed, digits, rest, byte, following, rfl, hback, hfollowing, rfl⟩ :=
            exists_of_meaning?_escape h
          have hshorter : rest.length < ('\\' :: c :: (digits ++ rest)).length := by
            simp only [List.length_cons, List.length_append]
            omega
          have hbytes := ih rest.length hshorter (hrest.behind hback) hfollowing rfl
          have hslash : weight '\\' = 1 := by decide
          have hc := weight_pos hfeed
          rw [weigh_cons, weigh_cons, weigh_append, hslash, List.length_cons]
          omega
      | @plain c text quote backslash feed hrest =>
          obtain ⟨byte, following, hfollowing, rfl⟩ := exists_of_meaning?_plain backslash h
          have hbytes := ih text.length (Nat.lt_succ_self _) hrest hfollowing rfl
          rw [weigh_cons, weight_of_ne quote backslash feed, List.length_cons]
          omega

/-! ## Literals -/

/-- **What literals cost.** A text that is read as literals weighs two for each byte that they mean
and two for each of them. -/
theorem weigh_literals? {text : List Char} {parts : List (List UInt8)}
    (h : literals? text = some parts) :
    2 * parts.flatten.length + 2 * parts.length ≤ weigh text := by
  induction text using literals?.induct generalizing parts with
  | case1 =>
      rw [literals?] at h
      cases h
      exact Nat.zero_le _
  | case2 c text hspace ih =>
      rw [literals?_space hspace] at h
      exact Nat.le_trans (ih h) (Nat.le_add_left _ _)
  | case3 text hnone hspace =>
      rw [literals?, if_neg hspace, if_pos rfl] at h
      split at h
      · cases h
      · rename_i hbody
        rw [hnone] at hbody
        cases hbody
  | case4 text body rest hbody hle hspace ih =>
      rw [literals?, if_neg hspace, if_pos rfl] at h
      split at h
      · cases h
      · rename_i hcut
        rw [hbody] at hcut
        cases hcut
        simp only [Option.bind_eq_bind, Option.bind_eq_some_iff, Option.pure_def,
          Option.some.injEq] at h
        obtain ⟨bytes, hmeaning, following, hfollowing, rfl⟩ := h
        obtain ⟨htext, -⟩ := eq_append_of_body? hbody
        have hbytes := weigh_meaning? (closes_of_body? hbody) hmeaning
        have hrest := ih hfollowing
        have hquote : weight '"' = 1 := by decide
        rw [htext, weigh_cons, weigh_append, weigh_cons, hquote, List.flatten_cons,
          List.length_append, List.length_cons]
        omega
  | case5 c text hspace hquote =>
      rw [literals?, if_neg hspace, if_neg hquote] at h
      cases h

end ByteEmbed.CLiteral
