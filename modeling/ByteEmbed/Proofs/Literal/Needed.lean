import ByteEmbed.Proofs.Literal.Cut
import ByteEmbed.Proofs.Literal.RoundTrip

/-!
# ByteEmbed.Proofs.Literal.Needed — every marker is needed.

In a segment two quotes in a row are a marker and nothing else (`partedByMarker_of_eq`): the only
spelling that holds a quote has a backslash in front of it and swallows nothing, so no marker
follows it, and no spelling starts with a quote.  A segment without one of its markers is a list of
tokens again, in which one swallows the next; whatever the escape in front of the gap is worth and
however much it takes, the body is refused or read as fewer bytes (`segments_need_markers`).
-/

namespace ByteEmbed.Literal

/-! ## Quotes -/

/-- A spelling with a quote in it is a backslash and the quote, and swallows nothing. -/
theorem text_of_mem_quote {byte : UInt8} (h : '"' ∈ (Spelling.ofByte byte).text.toList) :
    (Spelling.ofByte byte).text.toList = ['\\', '"']
      ∧ ∀ next, (Spelling.ofByte byte).swallows next = false := by
  have hshape := Spelling.shape_ofByte byte
  generalize Spelling.ofByte byte = spelling at hshape h
  cases hshape with
  | plain value low high semicolon quote backslash =>
      obtain rfl : '"' = _ := by simpa using h
      exact absurd rfl quote
  | quoted form =>
      obtain rfl : '"' = _ := by simpa using h
      exact ⟨Spelling.toList_text_quoted _, fun _ => rfl⟩
  | named form =>
      obtain rfl : '"' = _ := by simpa using h
      exact ⟨Spelling.toList_text_named _, fun next => by cases next <;> rfl⟩
  | zero value => simp at h
  | hex =>
      have hpair : '"' ∈ Hex.pair byte := by simpa using h
      exact absurd (Spelling.isHex_of_mem_pair hpair) (by decide)

/-- No text of a chunk starts with a quote. -/
theorem head?_spelled_ne_quote (chunk : List UInt8) : (spelled chunk).toList.head? ≠ some '"' := by
  cases chunk with
  | nil => simp [spelled]
  | cons byte chunk =>
      have hshape := Spelling.shape_ofByte byte
      rw [spelled, String.toList_append, String.toList_append]
      generalize Spelling.ofByte byte = spelling at hshape
      cases hshape with
      | plain value low high semicolon quote backslash => simpa using quote
      | _ => simp

/-- What a byte owes is two quotes or nothing, and two quotes only if its spelling has none. -/
theorem toList_owed (byte next : UInt8) :
    (Spelling.ofByte byte).swallows (Spelling.ofByte next) = true
        ∧ (owed byte (some next)).toList = ['"', '"']
        ∧ '"' ∉ (Spelling.ofByte byte).text.toList
      ∨ (owed byte (some next)).toList = [] := by
  cases hswallows : (Spelling.ofByte byte).swallows (Spelling.ofByte next) with
  | false => exact .inr (by simp [owed, hswallows])
  | true =>
      refine .inl ⟨rfl, by simp [owed, hswallows], fun hquote => ?_⟩
      rw [(text_of_mem_quote hquote).2] at hswallows
      cases hswallows

/-- Two quotes in a row do not start inside a spelling, if no quote follows one that ends in a
quote. -/
theorem exists_of_text_append {byte : UInt8} {text before after : List Char}
    (h : (Spelling.ofByte byte).text.toList ++ text = before ++ '"' :: '"' :: after)
    (hquote : '"' ∈ (Spelling.ofByte byte).text.toList → text.head? ≠ some '"') :
    ∃ between, before = (Spelling.ofByte byte).text.toList ++ between
      ∧ text = between ++ '"' :: '"' :: after := by
  rcases List.append_eq_append_iff.mp h with ⟨between, hbefore, htext⟩ | ⟨ending, hbyte, htext⟩
  · exact ⟨between, hbefore, htext⟩
  · cases ending with
    | nil =>
        refine ⟨[], ?_, htext.symm⟩
        rw [hbyte, List.append_nil, List.append_nil]
    | cons quote ending =>
        obtain rfl : '"' = quote := (List.cons_eq_cons.mp htext).1
        have hmem : '"' ∈ (Spelling.ofByte byte).text.toList := by simp [hbyte]
        -- the quote is the last character of the spelling, so the second one follows it
        obtain rfl : ending = [] := by
          rw [(text_of_mem_quote hmem).1] at hbyte
          have hlength := congrArg List.length hbyte
          cases before with
          | nil => simp at hbyte
          | cons c before =>
              simp at hlength
              exact List.eq_nil_of_length_eq_zero (by omega)
        obtain rfl : '"' :: after = text := (List.cons_eq_cons.mp htext).2
        exact absurd rfl (hquote hmem)

/-! ## Markers -/

/-- `before` and `after` are the parts of the text of `chunk` on the two sides of a marker, which
stands between two neighbours of which the first swallows the second. -/
def PartedByMarker (chunk : List UInt8) (before after : String) : Prop :=
  ∃ left x y right, chunk = left ++ x :: y :: right
    ∧ (Spelling.ofByte x).swallows (Spelling.ofByte y) = true
    ∧ before = spelled (left ++ [x]) ∧ after = spelled (y :: right)

/-- A marker in a chunk is one in the chunk with a byte more in front. -/
theorem PartedByMarker.cons {next : UInt8} {chunk : List UInt8} {before : List Char}
    {after : String} (h : PartedByMarker (next :: chunk) (String.ofList before) after)
    (byte : UInt8) :
    PartedByMarker (byte :: next :: chunk)
      (String.ofList ((Spelling.ofByte byte).text.toList
        ++ ((owed byte (some next)).toList ++ before))) after := by
  obtain ⟨left, x, y, right, hchunk, hswallows, hbefore, hafter⟩ := h
  have hnext : (left ++ [x]).head? = some next := by
    have hheads := congrArg List.head? hchunk
    cases left <;> simpa using hheads.symm
  refine ⟨byte :: left, x, y, right, by rw [hchunk, List.cons_append], hswallows, ?_, hafter⟩
  rw [List.cons_append, spelled, hnext, ← hbefore, String.ofList_append, String.ofList_append,
    String.ofList_toList, String.ofList_toList, String.append_assoc]

/-- Two quotes in a row are a marker. -/
theorem partedByMarker_of_eq {chunk : List UInt8} {before after : List Char}
    (h : (spelled chunk).toList = before ++ '"' :: '"' :: after) :
    PartedByMarker chunk (String.ofList before) (String.ofList after) := by
  induction chunk generalizing before with
  | nil => simp [spelled] at h
  | cons byte chunk ih =>
      rw [spelled, String.toList_append, String.toList_append, List.append_assoc] at h
      have hhead := head?_spelled_ne_quote chunk
      cases chunk with
      | nil =>
          obtain ⟨between, -, hnil⟩ := exists_of_text_append h (by simp [owed, spelled])
          simp [owed, spelled] at hnil
      | cons next chunk =>
          rw [List.head?_cons] at h
          rcases toList_owed byte next with ⟨hswallows, hmarker, hnone⟩ | hempty
          · obtain ⟨between, rfl, hrest⟩ :=
              exists_of_text_append h fun hmem => absurd hmem hnone
            rw [hmarker] at hrest
            rcases between with _ | ⟨c, _ | ⟨d, between⟩⟩
            · -- here is the marker
              simp only [List.cons_append, List.nil_append, List.cons.injEq, true_and] at hrest
              refine ⟨[], byte, next, chunk, rfl, hswallows, ?_, ?_⟩
              · simp [spelled, owed]
              · simp [← hrest]
            · -- no text starts with a quote
              simp only [List.cons_append, List.nil_append, List.cons.injEq, true_and] at hrest
              rw [hrest.2] at hhead
              exact absurd rfl hhead
            · -- the quotes are behind the marker that the first byte owes
              simp only [List.cons_append, List.nil_append, List.cons.injEq] at hrest
              obtain ⟨rfl, rfl, hrest⟩ := hrest
              have hlater := (ih hrest).cons byte
              rwa [hmarker] at hlater
          · rw [hempty, List.nil_append] at h
            obtain ⟨between, rfl, hrest⟩ := exists_of_text_append h fun _ => hhead
            have hlater := (ih hrest).cons byte
            rwa [hempty, List.nil_append] at hlater

/-- Without one of its markers the text of a chunk is read as fewer bytes, if it is read at all. -/
theorem PartedByMarker.length_read_lt {chunk : List UInt8} {before after : String}
    (h : PartedByMarker chunk before after) {fewer : List UInt8}
    (hread : Body.read (before ++ after) = .ok fewer) : fewer.length < chunk.length := by
  obtain ⟨left, x, y, right, rfl, hswallows, rfl, rfl⟩ := h
  have htext : (spelled (left ++ [x]) ++ spelled (y :: right)).toList
      = tokensText (chunkTokens (left ++ [x]) ++ chunkTokens (y :: right)) := by
    rw [String.toList_append, ← chunkText_eq_spelled, ← chunkText_eq_spelled, tokensText,
      List.flatMap_append]
    exact congrArg₂ _ (tokensText_chunkTokens _).symm (tokensText_chunkTokens _).symm
  have hbytes : tokensBytes (chunkTokens (left ++ [x]) ++ chunkTokens (y :: right))
      = left ++ x :: y :: right := by
    rw [tokensBytes_append, tokensBytes_chunkTokens, tokensBytes_chunkTokens]
    simp
  have hnot : ¬ (chunkTokens (left ++ [x]) ++ chunkTokens (y :: right)).IsChain
      fun token next => token.admits next = true := by
    intro hchain
    have hadmits := (List.isChain_append.mp hchain).2.2 (.spelled x)
      (by simp [getLast?_chunkTokens]) (.spelled y) (by simp [head?_chunkTokens])
    simp [Token.admits, adjoins, hswallows] at hadmits
  rw [Body.read, htext] at hread
  rw [← hbytes]
  exact (length_of_bytesFrom hread).2 hnot

/-- **Every marker is needed.** Wherever two quotes stand in a row in a segment, they are a marker,
and the segment without them is refused or read as fewer bytes than it encodes. -/
theorem segments_need_markers (bytes : List UInt8) (maxWidth : Nat) :
    ∀ segment ∈ (ofBytes bytes maxWidth).segments, ∃ chunk,
      segment = spelled chunk ∧ Body.read segment = .ok chunk
      ∧ ∀ before after : String, segment = before ++ "\"\"" ++ after →
        PartedByMarker chunk before after
        ∧ ∀ fewer, Body.read (before ++ after) = .ok fewer → fewer.length < chunk.length := by
  intro segment hsegment
  rw [segments_ofBytes_spelled] at hsegment
  obtain ⟨chunk, -, rfl⟩ := List.mem_map.mp hsegment
  refine ⟨chunk, rfl, chunkText_eq_spelled chunk ▸ read_chunkText chunk, fun before after h => ?_⟩
  have hchars : (spelled chunk).toList = before.toList ++ '"' :: '"' :: after.toList := by
    rw [h]
    simp
  have hmarker := partedByMarker_of_eq hchars
  rw [String.ofList_toList, String.ofList_toList] at hmarker
  exact ⟨hmarker, fun fewer hread => hmarker.length_read_lt hread⟩

/-- A segment with two markers: without the first its first escape is out of range, and without the
second its last escape takes the digit that follows. -/
theorem segments_need_markers_two_escapes :
    "\\xff\"\"f\\0\"\"7" ∈ (ofBytes [0xff, 0x66, 0x00, 0x37] 65).segments
    ∧ PartedByMarker [0xff, 0x66, 0x00, 0x37] "\\xff" "f\\0\"\"7"
    ∧ PartedByMarker [0xff, 0x66, 0x00, 0x37] "\\xff\"\"f\\0" "7"
    ∧ Body.read "\\xfff\\0\"\"7" = .error (.tooLarge 0)
    ∧ Body.read "\\xff\"\"f\\07" = .ok [0xff, 0x66, 0x07]
    ∧ [0xff, 0x66, 0x07].length < [0xff, 0x66, 0x00, 0x37].length := by
  have hmem : "\\xff\"\"f\\0\"\"7" ∈ (ofBytes [0xff, 0x66, 0x00, 0x37] 65).segments := by
    decide
  have hfewer : Body.read "\\xff\"\"f\\07" = .ok [0xff, 0x66, 0x07] := by cbv
  obtain ⟨chunk, -, hread, hmarkers⟩ := segments_need_markers [0xff, 0x66, 0x00, 0x37] 65 _ hmem
  obtain rfl : [0xff, 0x66, 0x00, 0x37] = chunk := by
    have hchunk : Body.read "\\xff\"\"f\\0\"\"7" = .ok [0xff, 0x66, 0x00, 0x37] := by
      cbv
    exact Except.ok.inj (hchunk.symm.trans hread)
  exact ⟨hmem, (hmarkers "\\xff" "f\\0\"\"7" (by decide)).1,
    (hmarkers "\\xff\"\"f\\0" "7" (by decide)).1, by cbv, hfewer,
    (hmarkers "\\xff\"\"f\\0" "7" (by decide)).2 _ hfewer⟩

end ByteEmbed.Literal
