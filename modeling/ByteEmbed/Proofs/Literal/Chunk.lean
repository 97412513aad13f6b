import ByteEmbed.Literal.Basic
import ByteEmbed.Proofs.Literal.Spelling
import ByteEmbed.Proofs.Text.Utf8

/-!
# ByteEmbed.Proofs.Literal.Chunk — segments as the texts of chunks of the bytes.

The loop that writes segments keeps one text and looks one byte ahead.  Here the same segments are
told in terms of the bytes alone: `chunksFrom` cuts the bytes into consecutive chunks, and
`chunkText` spells one chunk, with a marker between two neighbours where the first swallows the
second.  `segmentsFrom_eq` says that the segments are the texts of the chunks, whatever the cap.

The invariant of the open segment is `textBefore`: the text of the bytes written into it, with the
marker that the last of them owes to the byte that follows.
-/

namespace ByteEmbed.Literal

/-! ## The text of a chunk -/

/-- What stands between the spelling of `byte` and what follows it. -/
def separator (byte : UInt8) (following : List UInt8) : String :=
  if needsMarker byte following then Spelling.marker else ""

/-- The text of the bytes of a chunk when `following` is what comes after them. -/
def textBefore (following : List UInt8) : List UInt8 → String
  | [] => ""
  | byte :: chunk =>
    (Spelling.ofByte byte).text ++ separator byte (chunk ++ following) ++ textBefore following chunk

/-- The text of a chunk that nothing follows. -/
def chunkText (chunk : List UInt8) : String := textBefore [] chunk

theorem chunkText_cons (byte : UInt8) (chunk : List UInt8) :
    chunkText (byte :: chunk)
      = (Spelling.ofByte byte).text ++ separator byte chunk ++ chunkText chunk := by
  rw [chunkText, textBefore, List.append_nil]
  rfl

/-- A marker is owed to the next byte only. -/
theorem separator_congr (byte : UInt8) {following following' : List UInt8}
    (h : following.head? = following'.head?) :
    separator byte following = separator byte following' := by
  have hneeds : needsMarker byte following = needsMarker byte following' := by
    rw [needsMarker, needsMarker, h]
  rw [separator, separator, hneeds]

theorem textBefore_congr {following following' : List UInt8}
    (h : following.head? = following'.head?) (chunk : List UInt8) :
    textBefore following chunk = textBefore following' chunk := by
  induction chunk with
  | nil => rfl
  | cons byte chunk ih =>
      have hhead : (chunk ++ following).head? = (chunk ++ following').head? := by
        simp [List.head?_append, h]
      rw [textBefore, textBefore, ih, separator_congr byte hhead]

theorem textBefore_append (following chunk chunk' : List UInt8) :
    textBefore following (chunk ++ chunk')
      = textBefore (chunk' ++ following) chunk ++ textBefore following chunk' := by
  induction chunk with
  | nil => simp [textBefore]
  | cons byte chunk ih => simp [textBefore, ih, String.append_assoc]

/-- One more byte: its spelling goes behind what was written, and then the marker it owes. -/
theorem textBefore_snoc (following opened : List UInt8) (byte : UInt8) :
    textBefore following (opened ++ [byte])
      = textBefore (byte :: following) opened ++ (Spelling.ofByte byte).text
        ++ separator byte following := by
  simp [textBefore_append, textBefore, String.append_assoc]

/-- A chunk that ends with `byte` owes nothing after it. -/
theorem chunkText_snoc (following opened : List UInt8) (byte : UInt8) :
    chunkText (opened ++ [byte])
      = textBefore (byte :: following) opened ++ (Spelling.ofByte byte).text := by
  have hhead : textBefore [byte] opened = textBefore (byte :: following) opened :=
    textBefore_congr (by simp) opened
  rw [chunkText, textBefore_snoc, hhead]
  simp [separator, needsMarker]

theorem textBefore_eq_empty_iff (following chunk : List UInt8) :
    textBefore following chunk = "" ↔ chunk = [] := by
  cases chunk with
  | nil => simp [textBefore]
  | cons byte chunk =>
      simp [textBefore, String.append_eq_empty_iff, Spelling.text_ne_empty]

/-- What is written is printable ASCII without semicolons. -/
theorem printable_textBefore {following chunk : List UInt8} {c : Char}
    (h : c ∈ (textBefore following chunk).toList) : ' ' ≤ c ∧ c ≤ '~' ∧ c ≠ ';' := by
  induction chunk with
  | nil => simp [textBefore] at h
  | cons byte chunk ih =>
      rw [textBefore, String.toList_append, String.toList_append, List.mem_append,
        List.mem_append] at h
      rcases h with (h | h) | h
      · exact Spelling.printable_text_ofByte h
      · rw [separator] at h
        split at h
        · simp only [Spelling.toList_marker, List.mem_cons, List.not_mem_nil, or_false] at h
          rcases h with rfl | rfl <;> decide
        · simp at h
      · exact ih h

/-- So the room it takes is the number of its characters. -/
theorem utf8ByteSize_textBefore (following chunk : List UInt8) :
    (textBefore following chunk).utf8ByteSize = (textBefore following chunk).length := by
  apply Text.Utf8.utf8ByteSize_of_ascii
  intro c hc
  exact UInt32.lt_of_le_of_lt (printable_textBefore hc).2.1 (by decide : '~'.val < 128)

/-! ## The chunks -/

/-- The chunks of the bytes to come, when the bytes of `opened` stand in the open segment. -/
def chunksFrom (maxWidth : Nat) (opened : List UInt8) : List UInt8 → List (List UInt8)
  | [] => if opened.isEmpty then [] else [opened]
  | byte :: following =>
    if maxWidth < (textBefore following (opened ++ [byte])).utf8ByteSize then
      (opened ++ [byte]) :: chunksFrom maxWidth [] following
    else chunksFrom maxWidth (opened ++ [byte]) following

/-- The chunks that `bytes` are cut into. -/
def chunks (maxWidth : Nat) (bytes : List UInt8) : List (List UInt8) :=
  chunksFrom maxWidth [] bytes

/-- Cutting loses no byte and keeps the order. -/
theorem flatten_chunksFrom (maxWidth : Nat) (opened following : List UInt8) :
    (chunksFrom maxWidth opened following).flatten = opened ++ following := by
  -- the open segment changes with every byte, so the induction is for any of them
  induction following generalizing opened with
  | nil => cases opened <;> simp [chunksFrom]
  | cons byte following ih =>
      rw [chunksFrom]
      split
      · rw [List.flatten_cons, ih]
        simp
      · rw [ih]
        simp

theorem flatten_chunks (maxWidth : Nat) (bytes : List UInt8) :
    (chunks maxWidth bytes).flatten = bytes := by
  rw [chunks, flatten_chunksFrom, List.nil_append]

theorem ne_nil_of_mem_chunksFrom {maxWidth : Nat} {opened following chunk : List UInt8}
    (h : chunk ∈ chunksFrom maxWidth opened following) : chunk ≠ [] := by
  induction following generalizing opened with
  | nil =>
      cases opened with
      | nil => simp [chunksFrom] at h
      | cons byte opened =>
          obtain rfl : chunk = byte :: opened := by simpa [chunksFrom] using h
          simp
  | cons byte following ih =>
      rw [chunksFrom] at h
      split at h
      · rcases List.mem_cons.mp h with rfl | h
        · -- a cut comes right behind a byte
          simp
        · exact ih h
      · exact ih h

theorem ne_nil_of_mem_chunks {maxWidth : Nat} {bytes chunk : List UInt8}
    (h : chunk ∈ chunks maxWidth bytes) : chunk ≠ [] :=
  ne_nil_of_mem_chunksFrom h

/-- The segments written from an open one are the texts of the chunks cut from its bytes. -/
theorem segmentsFrom_eq (maxWidth : Nat) (opened following : List UInt8) :
    segmentsFrom maxWidth (textBefore following opened) following
      = (chunksFrom maxWidth opened following).map chunkText := by
  induction following generalizing opened with
  | nil =>
      cases opened with
      | nil => rfl
      | cons byte opened =>
          have hne : (textBefore [] (byte :: opened)).isEmpty = false :=
            String.isEmpty_eq_false_iff.mpr (by simp [textBefore_eq_empty_iff])
          simp [segmentsFrom, chunksFrom, hne, chunkText]
  | cons byte following ih =>
      -- the text that the loop carries on is the invariant with one more byte
      have hwritten : (if needsMarker byte following then
            textBefore (byte :: following) opened ++ (Spelling.ofByte byte).text ++ Spelling.marker
          else textBefore (byte :: following) opened ++ (Spelling.ofByte byte).text)
          = textBefore following (opened ++ [byte]) := by
        rw [textBefore_snoc, separator]
        split <;> simp
      rw [segmentsFrom, chunksFrom, hwritten]
      split
      · -- the cut drops the marker that the last byte owed, and the next segment is empty
        rw [List.map_cons, chunkText_snoc following, ← ih []]
        rfl
      · exact ih (opened ++ [byte])

/-- The segments of `bytes` are the texts of its chunks. -/
theorem segments_ofBytes (bytes : List UInt8) (maxWidth : Nat) :
    (ofBytes bytes maxWidth).segments = (chunks maxWidth bytes).map chunkText :=
  segmentsFrom_eq maxWidth [] bytes

end ByteEmbed.Literal
