import ByteEmbed.Proofs.CLiteral.Spelling

/-!
# ByteEmbed.Proofs.CLiteral.Verbatim — text that is put in quotes as it is.

A text of ASCII that nobody escapes is one literal that means itself exactly when it holds neither a
quote nor a backslash.  A quote would close the literal, and what it leaves behind would have to be
white space; a backslash takes a character with it, so that the literal means fewer bytes than it
has characters (`literals?_verbatim_iff`).
-/

namespace ByteEmbed.CLiteral

/-! ## Cutting -/

/-- A literal that is cut out of a text is a body and a quote behind it.  Only a backslash keeps a
quote inside the body. -/
theorem eq_append_of_body? {text body rest : List Char} (h : body? text = some (body, rest)) :
    text = body ++ '"' :: rest ∧ ('\\' ∉ body → '"' ∉ body) := by
  induction text using body?.induct generalizing body with
  | case1 => cases h
  | case2 text =>
      cases h
      exact ⟨rfl, fun _ => List.not_mem_nil⟩
  | case3 c text ih =>
      obtain ⟨⟨b, r⟩, hbody, heq⟩ := Option.map_eq_some_iff.mp h
      simp only [Prod.mk.injEq] at heq
      obtain ⟨rfl, rfl⟩ := heq
      obtain ⟨htext, -⟩ := ih hbody
      refine ⟨by rw [htext]; rfl, ?_⟩
      intro hback
      exact absurd List.mem_cons_self hback
  | case4 text hquote hescape => simp [body?] at h
  | case5 c text hquote hescape hfeed ih =>
      simp only [body?, hfeed, if_false] at h
      obtain ⟨⟨b, r⟩, hbody, heq⟩ := Option.map_eq_some_iff.mp h
      simp only [Prod.mk.injEq] at heq
      obtain ⟨rfl, rfl⟩ := heq
      obtain ⟨htext, hquotes⟩ := ih hbody
      refine ⟨by rw [htext]; rfl, ?_⟩
      intro hback
      rw [List.mem_cons, not_or] at hback ⊢
      exact ⟨fun hc => hquote hc.symm, hquotes hback.2⟩

/-- A text that is no literal at all is white space. -/
theorem isSpace_of_literals?_nil {text : List Char} (h : literals? text = some []) :
    ∀ c ∈ text, isSpace c = true := by
  induction text with
  | nil => simp
  | cons c text ih =>
      rw [literals?] at h
      split at h
      · rename_i hspace
        intro d hd
        rcases List.mem_cons.mp hd with rfl | hd
        · exact hspace
        · exact ih h d hd
      · split at h
        · split at h
          · cases h
          · rename_i body rest hbody
            cases hmeaning : meaning? body with
            | none =>
                rw [hmeaning] at h
                cases h
            | some bytes =>
                rw [hmeaning] at h
                cases hrest : literals? rest with
                | none =>
                    rw [hrest] at h
                    cases h
                | some following =>
                    rw [hrest] at h
                    cases h
        · cases h

/-! ## Resolving -/

theorem ne_backslash_of_plain? {c : Char} {byte : UInt8} (h : plain? c = some byte) : c ≠ '\\' := by
  rw [plain?] at h
  split at h
  · rename_i hplain
    exact hplain.1
  · cases h

/-- A body means at most one byte for each character, and fewer if there is an escape in it. -/
theorem length_meaning?_le {text : List Char} {bytes : List UInt8}
    (h : meaning? text = some bytes) :
    bytes.length ≤ text.length ∧ (bytes.length = text.length → '\\' ∉ text) := by
  induction text using meaning?.induct generalizing bytes with
  | case1 =>
      rw [meaning?] at h
      cases h
      simp
  | case2 text digits =>
      rename_i ih
      simp only [meaning?, Option.bind_eq_bind, Option.bind_eq_some_iff, Option.pure_def,
        Option.some.injEq] at h
      obtain ⟨byte, -, following, hfollowing, rfl⟩ := h
      have hle := (ih hfollowing).1
      simp only [List.length_cons, List.length_drop] at hle ⊢
      omega
  | case3 c text hhex hdigit digits =>
      rename_i ih
      simp only [meaning?, hdigit, if_true, Option.bind_eq_bind, Option.bind_eq_some_iff,
        Option.pure_def, Option.some.injEq] at h
      obtain ⟨byte, -, following, hfollowing, rfl⟩ := h
      have hle := (ih hfollowing).1
      simp only [List.length_cons, List.length_drop] at hle ⊢
      omega
  | case4 c text hhex hdigit ih =>
      rw [meaning?, if_neg hdigit] at h
      · simp only [Option.bind_eq_bind, Option.bind_eq_some_iff, Option.pure_def,
          Option.some.injEq] at h
        obtain ⟨byte, -, following, hfollowing, rfl⟩ := h
        have hle := (ih hfollowing).1
        simp only [List.length_cons]
        omega
      · exact hhex
  | case5 c text hhex hescape ih =>
      rw [meaning?] at h
      · simp only [Option.bind_eq_bind, Option.bind_eq_some_iff, Option.pure_def,
          Option.some.injEq] at h
        obtain ⟨byte, hplain, following, hfollowing, rfl⟩ := h
        obtain ⟨hle, hback⟩ := ih hfollowing
        refine ⟨Nat.succ_le_succ hle, fun heq => ?_⟩
        rw [List.mem_cons, not_or]
        exact ⟨(ne_backslash_of_plain? hplain).symm, hback (Nat.succ.inj heq)⟩
      · exact hhex
      · exact hescape

/-! ## Text in quotes -/

/-- A text without quotes and backslashes is passed over by cutting, and means itself. -/
theorem passes_verbatim {text : List Char} (hfeed : '\n' ∉ text) (hquote : '"' ∉ text)
    (hback : '\\' ∉ text) : Passes text := by
  induction text with
  | nil => exact .nil
  | cons c text ih =>
      rw [List.mem_cons, not_or] at hfeed hquote hback
      have hplain : Passes [c] := .plain (Ne.symm hquote.1) (Ne.symm hback.1) (Ne.symm hfeed.1)
      exact hplain.append (ih hfeed.2 hquote.2 hback.2)

theorem meaning?_verbatim {text : List Char} (hascii : ∀ c ∈ text, c.val < 128)
    (hback : '\\' ∉ text) : meaning? text = some (text.map (·.val.toUInt8)) := by
  induction text with
  | nil => rw [meaning?, List.map_nil]
  | cons c text ih =>
      rw [List.mem_cons, not_or] at hback
      have hrest := ih (fun d hd => hascii d (List.mem_cons_of_mem _ hd)) hback.2
      rw [meaning?_plain (Ne.symm hback.1) (hascii c List.mem_cons_self), hrest]
      rfl

/-- One literal that has as many bytes as there are characters between the quotes holds no quote and
no backslash. -/
theorem verbatim_of_literals? {text : List Char} {bytes : List UInt8}
    (h : literals? ('"' :: (text ++ ['"'])) = some [bytes])
    (hlength : bytes.length = text.length) : '"' ∉ text ∧ '\\' ∉ text := by
  rw [literals?, if_neg (by decide), if_pos rfl] at h
  split at h
  · cases h
  · rename_i body rest hbody
    obtain ⟨htext, hquotes⟩ := eq_append_of_body? hbody
    simp only [Option.bind_eq_bind, Option.bind_eq_some_iff, Option.pure_def,
      Option.some.injEq, List.cons.injEq] at h
    obtain ⟨_, hmeaning, _, hrest, rfl, rfl⟩ := h
    -- the quote at the end is the one that closes the literal, as nothing but space is behind it
    have hnil : rest = [] := by
      rcases List.eq_nil_or_concat rest with hnil | ⟨init, last, rfl⟩
      · exact hnil
      · rw [List.concat_eq_append] at htext hrest
        have hlast : '"' = last := by
          have hend := congrArg List.getLast? htext
          simpa [List.getLast?_cons] using hend
        have hspace := isSpace_of_literals?_nil hrest last (by simp)
        rw [← hlast] at hspace
        cases hspace
    rw [hnil] at htext
    obtain rfl : text = body := List.append_cancel_right htext
    have hback := (length_meaning?_le hmeaning).2 hlength
    exact ⟨hquotes hback, hback⟩

/-- **Text in quotes.** A text of ASCII on one line that is put in quotes as it is is one literal
that means the text exactly when it holds neither a quote nor a backslash. -/
theorem literals?_verbatim_iff {text : List Char} (hfeed : '\n' ∉ text)
    (hascii : ∀ c ∈ text, c.val < 128) :
    literals? ('"' :: (text ++ ['"'])) = some [text.map (·.val.toUInt8)]
      ↔ '"' ∉ text ∧ '\\' ∉ text := by
  constructor
  · intro h
    exact verbatim_of_literals? h (List.length_map _)
  · rintro ⟨hquote, hback⟩
    rw [literals?_quoted (passes_verbatim hfeed hquote hback) (meaning?_verbatim hascii hback),
      literals?]
    rfl

end ByteEmbed.CLiteral
