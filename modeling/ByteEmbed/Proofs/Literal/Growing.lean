import ByteEmbed.Proofs.Literal.Cut

/-!
# ByteEmbed.Proofs.Literal.Growing — the segments of bytes to which more are added.

While bytes are spelled, only one byte ahead is looked at.  So bytes that are added later can change
what is decided at the last byte and nowhere else: there they bring a marker, and with it the chunk
may become too wide.  Either way the chunk ends behind that byte, as it did with the input, or it
goes on (`grows_chunksFrom`); what is written of it stays as it is, and the marker comes behind it.
-/

namespace ByteEmbed.Literal

variable {maxWidth : Nat}

/-! ## Chunks -/

/-- `grown` has the chunks of `parts`, of which the last may go on, and perhaps more behind them. -/
def Grows (parts grown : List (List UInt8)) : Prop :=
  ∃ earlier last more later, parts = earlier ++ [last] ∧ grown = earlier ++ (last ++ more) :: later

theorem Grows.cons {parts grown : List (List UInt8)} (h : Grows parts grown) (chunk : List UInt8) :
    Grows (chunk :: parts) (chunk :: grown) := by
  obtain ⟨earlier, last, more, later, rfl, rfl⟩ := h
  exact ⟨chunk :: earlier, last, more, later, rfl, rfl⟩

/-- Whether a chunk overflows depends on the next byte only. -/
theorem overflows_append_iff {opened following : List UInt8} {byte : UInt8} (hne : following ≠ [])
    (added : List UInt8) :
    Overflows maxWidth opened byte (following ++ added)
      ↔ Overflows maxWidth opened byte following := by
  rw [Overflows, Overflows, List.head?_append_of_ne_nil _ hne]

/-- The bytes in the open segment stay together, whatever follows. -/
theorem exists_chunksFrom_eq {opened : List UInt8} (hne : opened ≠ []) (following : List UInt8) :
    ∃ more later, chunksFrom maxWidth opened following = (opened ++ more) :: later := by
  induction following generalizing opened with
  | nil => exact ⟨[], [], by simp [chunksFrom, hne]⟩
  | cons byte following ih =>
      by_cases hwide : Overflows maxWidth opened byte following
      · exact ⟨[byte], chunks maxWidth following, chunksFrom_of_overflows hwide⟩
      · obtain ⟨more, later, hchunks⟩ := @ih (opened ++ [byte]) (by simp)
        refine ⟨byte :: more, later, ?_⟩
        rw [chunksFrom_of_not_overflows hwide, hchunks, List.append_assoc]
        rfl

/-- The last byte ends its chunk, with the input if not before. -/
theorem chunksFrom_singleton (opened : List UInt8) (byte : UInt8) :
    chunksFrom maxWidth opened [byte] = [opened ++ [byte]] := by
  by_cases hwide : Overflows maxWidth opened byte []
  · rw [chunksFrom_of_overflows hwide]
    rfl
  · rw [chunksFrom_of_not_overflows hwide]
    simp [chunksFrom]

/-- The chunks grow with the bytes to come. -/
theorem grows_chunksFrom (opened : List UInt8) {following : List UInt8} (hne : following ≠ [])
    (added : List UInt8) :
    Grows (chunksFrom maxWidth opened following)
      (chunksFrom maxWidth opened (following ++ added)) := by
  induction following generalizing opened with
  | nil => exact absurd rfl hne
  | cons byte following ih =>
      rw [List.cons_append]
      by_cases hlast : following = []
      · -- only here does the byte that is looked at belong to what is added
        subst hlast
        rw [chunksFrom_singleton, List.nil_append]
        by_cases hwide : Overflows maxWidth opened byte added
        · rw [chunksFrom_of_overflows hwide]
          exact ⟨[], opened ++ [byte], [], chunks maxWidth added, rfl, by simp⟩
        · rw [chunksFrom_of_not_overflows hwide]
          have hopened : opened ++ [byte] ≠ [] := by simp
          obtain ⟨more, later, hchunks⟩ := exists_chunksFrom_eq hopened added
          exact ⟨[], opened ++ [byte], more, later, rfl, hchunks⟩
      · by_cases hwide : Overflows maxWidth opened byte following
        · rw [chunksFrom_of_overflows hwide,
            chunksFrom_of_overflows ((overflows_append_iff hlast added).mpr hwide)]
          exact (ih [] hlast).cons _
        · rw [chunksFrom_of_not_overflows hwide,
            chunksFrom_of_not_overflows (mt (overflows_append_iff hlast added).mp hwide)]
          exact ih (opened ++ [byte]) hlast

/-! ## Texts -/

/-- The text of a chunk that goes on starts with the text of the chunk. -/
theorem exists_chunkText_append (chunk more : List UInt8) :
    ∃ text, chunkText (chunk ++ more) = chunkText chunk ++ text := by
  rcases List.eq_nil_or_concat' chunk with rfl | ⟨opened, byte, rfl⟩
  · exact ⟨chunkText more, by simp [chunkText, textBefore]⟩
  · -- the marker that the last byte comes to owe is behind its spelling
    refine ⟨separator byte more ++ chunkText more, ?_⟩
    rw [chunkText, textBefore_append, List.append_nil, textBefore_snoc,
      ← chunkText_snoc more opened byte, String.append_assoc]
    rfl

/-- **Segments grow with the bytes.** When bytes are added to some that have segments, there are at
least as many segments as before; all but the last of the old ones stay as they are, and the one in
the place of the last starts with it. -/
theorem segments_append_grow (bytes added : List UInt8) (maxWidth : Nat)
    (h : 0 < (ofBytes bytes maxWidth).size) :
    (ofBytes bytes maxWidth).size ≤ (ofBytes (bytes ++ added) maxWidth).size
    ∧ ∃ earlier last more later,
      (ofBytes bytes maxWidth).segments = earlier ++ [last]
      ∧ (ofBytes (bytes ++ added) maxWidth).segments = earlier ++ (last ++ more) :: later := by
  have hne : bytes ≠ [] := by
    rintro rfl
    cases h
  obtain ⟨earlier, last, more, later, hparts, hgrown⟩ :
      Grows (chunks maxWidth bytes) (chunks maxWidth (bytes ++ added)) :=
    grows_chunksFrom [] hne added
  obtain ⟨text, htext⟩ := exists_chunkText_append last more
  have hsegments : (ofBytes bytes maxWidth).segments
      = earlier.map chunkText ++ [chunkText last] := by
    rw [segments_ofBytes, hparts, List.map_append]
    rfl
  have hgrown' : (ofBytes (bytes ++ added) maxWidth).segments
      = earlier.map chunkText ++ (chunkText last ++ text) :: later.map chunkText := by
    rw [segments_ofBytes, hgrown, List.map_append, List.map_cons, htext]
  refine ⟨?_, earlier.map chunkText, chunkText last, text, later.map chunkText, hsegments, hgrown'⟩
  rw [size, size, hsegments, hgrown']
  simp

/-- A digit behind a null byte: the segment that was closed stays, and the open one goes on with a
marker. -/
theorem segments_append_grow_marker :
    0 < (ofBytes [0x41, 0xff, 0x00] 4).size
    ∧ (ofBytes [0x41, 0xff, 0x00] 4).segments = ["A\\xff"] ++ ["\\0"]
    ∧ (ofBytes [0x41, 0xff, 0x00, 0x37, 0x38] 4).segments = ["A\\xff", "\\0\"\"7", "8"]
    ∧ ∃ more later, (ofBytes ([0x41, 0xff, 0x00] ++ [0x37, 0x38]) 4).segments
        = ["A\\xff"] ++ ("\\0" ++ more) :: later := by
  have hsize : 0 < (ofBytes [0x41, 0xff, 0x00] 4).size := by decide
  have hsegments : (ofBytes [0x41, 0xff, 0x00] 4).segments = ["A\\xff"] ++ ["\\0"] := by decide
  obtain ⟨-, earlier, last, more, later, hparts, hgrown⟩ :=
    segments_append_grow [0x41, 0xff, 0x00] [0x37, 0x38] 4 hsize
  obtain ⟨rfl, hlast⟩ := List.append_inj' (hsegments.symm.trans hparts) rfl
  obtain rfl := List.singleton_inj.mp hlast
  exact ⟨hsize, hsegments, by decide, more, later, hgrown⟩

end ByteEmbed.Literal
