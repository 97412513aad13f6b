import ByteEmbed.Proofs.CLiteral.Reader
import ByteEmbed.Proofs.Literal.Piece

/-!
# ByteEmbed.Proofs.CLiteral.Spelling — spelled bytes in quotes, as a C compiler reads them.

Both steps of the reader are followed over one spelling first.  Cutting *passes* over it: a spelling
neither closes the literal nor leaves an escape open.  Resolving gives its byte, when what follows
stops it.  Pieces are spellings that stop one another, so each piece in quotes is one literal that
means its bytes, and a segment in quotes is one literal for each piece of its chunk.
-/

namespace ByteEmbed.CLiteral

open Literal (adjoins pieceText pieces chunkText)
open Spelling (Stops)

/-! ## Cutting -/

/-- Cutting passes over `text`: it puts all of it into the body and goes on behind it. -/
def Passes (text : List Char) : Prop :=
  ∀ more, body? (text ++ more) = (body? more).map fun (body, rest) => (text ++ body, rest)

theorem Passes.nil : Passes [] := by
  intro more
  simp

theorem Passes.append {text text' : List Char} (h : Passes text) (h' : Passes text') :
    Passes (text ++ text') := by
  intro more
  rw [List.append_assoc, h, h', Option.map_map]
  simp [Function.comp_def]

theorem Passes.plain {c : Char} (hquote : c ≠ '"') (hback : c ≠ '\\') (hfeed : c ≠ '\n') :
    Passes [c] := by
  intro more
  simp [body?, hback, hfeed]

theorem Passes.escape (c : Char) : Passes ['\\', c] := by
  intro more
  simp [body?]

theorem Passes.digits {digits : List Char} (h : ∀ c ∈ digits, Digit.isDigit 16 c = true) :
    Passes digits := by
  induction digits with
  | nil => exact .nil
  | cons c digits ih =>
      have hc := h c (by simp)
      have hplain : Passes [c] := by
        refine .plain ?_ ?_ ?_ <;>
          · rintro rfl
            revert hc
            decide
      exact hplain.append (ih fun d hd => h d (by simp [hd]))

theorem passes_spelling (byte : UInt8) : Passes (Spelling.ofByte byte).text.toList := by
  have hshape := Spelling.shape_ofByte byte
  generalize Spelling.ofByte byte = spelling at hshape
  cases hshape with
  | plain value low high semicolon quote backslash =>
      rw [Spelling.toList_text_plain]
      refine .plain quote backslash ?_
      rintro rfl
      revert low
      decide
  | quoted form => simpa using Passes.escape _
  | named form => simpa using Passes.escape _
  | zero value => simpa using Passes.escape _
  | hex =>
      rw [Spelling.toList_text_hex]
      exact (Passes.escape 'x').append (.digits fun c hc => Spelling.isHex_of_mem_pair hc)

theorem passes_pieceText (piece : List UInt8) : Passes (pieceText piece) := by
  induction piece with
  | nil => exact .nil
  | cons byte piece ih => exact (passes_spelling byte).append ih

/-! ## Resolving -/

theorem meaning?_short {c : Char} {byte : UInt8} (h : (c, byte) ∈ Spelling.shortForms)
    (rest : List Char) :
    meaning? ('\\' :: c :: rest) = (meaning? rest).map (byte :: ·) := by
  simp only [Spelling.shortForms, List.mem_cons, List.not_mem_nil, or_false, Prod.mk.injEq] at h
  rcases h with ⟨rfl, rfl⟩ | ⟨rfl, rfl⟩ | ⟨rfl, rfl⟩ | ⟨rfl, rfl⟩ | ⟨rfl, rfl⟩ | ⟨rfl, rfl⟩ <;>
    · rw [meaning?, if_neg (by decide)]
      · cases hrest : meaning? rest <;> rfl
      · decide

theorem meaning?_hex {digits rest : List Char} (hne : digits ≠ [])
    (hdigits : ∀ c ∈ digits, Digit.isDigit 16 c = true) (hrest : Digit.NoneAhead 16 rest)
    (hnumber : Digit.number 16 digits < 256) :
    meaning? ('\\' :: 'x' :: (digits ++ rest))
      = (meaning? rest).map (UInt8.ofNat (Digit.number 16 digits) :: ·) := by
  have htaken := Digit.takeWhile_isDigit_append hdigits hrest
  rw [meaning?, htaken, List.drop_left, numericEscape?, if_pos ⟨hne, hnumber⟩]
  cases meaning? rest <;> rfl

theorem meaning?_zero {rest : List Char} (hrest : Digit.NoneAhead 8 rest) :
    meaning? ('\\' :: '0' :: rest) = (meaning? rest).map (0 :: ·) := by
  have htaken : (rest.take 2).takeWhile (Digit.isDigit 8) = [] := by
    cases rest with
    | nil => rfl
    | cons c rest => simp [hrest c rfl]
  have hbyte : numericEscape? 8 ['0'] = some 0 := by decide
  rw [meaning?, if_pos (by decide)]
  · rw [htaken]
    cases hmore : meaning? rest <;> simp [hbyte, hmore]
  · decide

/-- A spelling means its byte, when what follows does not continue it. -/
theorem meaning?_spelling {byte : UInt8} {rest : List Char}
    (hstops : Stops (Spelling.ofByte byte) rest) :
    meaning? ((Spelling.ofByte byte).text.toList ++ rest)
      = (meaning? rest).map (byte :: ·) := by
  have hshape := Spelling.shape_ofByte byte
  generalize Spelling.ofByte byte = spelling at hshape hstops
  cases hshape with
  | plain value low high semicolon quote backslash =>
      have hascii := UInt32.lt_of_le_of_lt high (by decide : '~'.val < 128)
      subst value
      simpa using meaning?_plain backslash hascii rest
  | quoted form => simpa using meaning?_short form rest
  | named form => simpa using meaning?_short form rest
  | zero value => simpa [value] using meaning?_zero hstops.noneAhead_zero
  | hex =>
      have hnumber : Digit.number 16 (Hex.pair byte) < 256 := by
        rw [Spelling.number_pair]
        exact byte.toNat_lt
      have hmeaning := meaning?_hex (by simp [Hex.pair])
        (fun c hc => Spelling.isHex_of_mem_pair hc) hstops.noneAhead_hex hnumber
      simpa [Spelling.number_pair] using hmeaning

/-- A piece means its bytes: no marker is missing in it. -/
theorem meaning?_pieceText {piece : List UInt8}
    (hchain : piece.IsChain fun x y => adjoins x y = true) :
    meaning? (pieceText piece) = some piece := by
  induction piece with
  | nil => rw [pieceText, List.flatMap_nil, meaning?]
  | cons byte piece ih =>
      have hstops : Stops (Spelling.ofByte byte) (pieceText piece) := by
        cases piece with
        | nil => exact Stops.nil _
        | cons next piece =>
            have hadjoins := (List.isChain_cons_cons.mp hchain).1
            exact Stops.text (by simpa [adjoins] using hadjoins) _
      have hmeaning := meaning?_spelling hstops
      rw [ih hchain.tail, Option.map_some] at hmeaning
      exact hmeaning

/-! ## Literals -/

theorem literals?_spaces (n : Nat) (text : List Char) :
    literals? (List.replicate n ' ' ++ text) = literals? text := by
  induction n with
  | zero => rfl
  | succ n ih => rw [List.replicate_succ, List.cons_append, literals?_space (by decide), ih]

/-- A body in quotes is one literal, and what follows is read on its own. -/
theorem literals?_quoted {body : List Char} {bytes : List UInt8} (hpasses : Passes body)
    (hmeaning : meaning? body = some bytes) (rest : List Char) :
    literals? ('"' :: (body ++ '"' :: rest)) = (literals? rest).map (bytes :: ·) := by
  have hbody : body? (body ++ '"' :: rest) = some (body, rest) := by
    rw [hpasses]
    simp [body?]
  rw [literals?, if_neg (by decide), if_pos rfl]
  split
  · rename_i h
    rw [hbody] at h
    cases h
  · rename_i h
    rw [hbody] at h
    cases h
    rw [hmeaning]
    cases literals? rest <;> rfl

/-- Pieces in quotes, with a marker between two of them, are one literal each. -/
theorem literals?_pieces {parts : List (List UInt8)} (hne : parts ≠ [])
    (hchain : ∀ piece ∈ parts, piece.IsChain fun x y => adjoins x y = true) (rest : List Char) :
    literals? ('"' :: (Spelling.marker.toList.intercalate (parts.map pieceText) ++ '"' :: rest))
      = (literals? rest).map (parts ++ ·) := by
  induction parts with
  | nil => exact absurd rfl hne
  | cons piece parts ih =>
      have hmeaning := meaning?_pieceText (hchain piece (by simp))
      have hquoted := literals?_quoted (passes_pieceText piece) hmeaning
      cases parts with
      | nil => simpa using hquoted rest
      | cons next parts =>
          have ih := ih (by simp) fun p hp => hchain p (by simp [hp])
          have htext : '"' :: (Spelling.marker.toList.intercalate
                ((piece :: next :: parts).map pieceText) ++ '"' :: rest)
              = '"' :: (pieceText piece ++ '"' :: ('"' :: (Spelling.marker.toList.intercalate
                ((next :: parts).map pieceText) ++ '"' :: rest))) := by
            simp [List.intercalate_cons_cons]
          rw [htext, hquoted, ih, Option.map_map]
          rfl

/-- The text of a chunk in quotes is complete literals that mean the bytes of the chunk. -/
theorem literals?_chunkText (chunk : List UInt8) :
    ∃ parts : List (List UInt8), parts.flatten = chunk ∧
      ∀ rest, literals? ('"' :: ((chunkText chunk).toList ++ '"' :: rest))
        = (literals? rest).map (parts ++ ·) := by
  cases chunk with
  | nil =>
      refine ⟨[[]], rfl, fun rest => ?_⟩
      exact literals?_quoted .nil (by rw [meaning?]) rest
  | cons byte chunk =>
      refine ⟨pieces (byte :: chunk), Literal.flatten_pieces _, fun rest => ?_⟩
      rw [Literal.toList_chunkText]
      exact literals?_pieces (by simp)
        (fun piece hpiece => List.isChain_of_mem_splitBy hpiece) rest

end ByteEmbed.CLiteral
