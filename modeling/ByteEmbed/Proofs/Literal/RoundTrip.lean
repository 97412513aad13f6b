import ByteEmbed.Proofs.Literal.Token

/-!
# ByteEmbed.Proofs.Literal.RoundTrip — segments are read back as the bytes they spell.

Within a chunk no token swallows the next one: where it would, a marker stands between.  So each
segment is read as its chunk, and the chunks joined are the bytes, whatever the cap is; in
particular the marker that is dropped at a cut is never missed.
-/

namespace ByteEmbed.Literal

open Body (Reads)

/-! ## Chunks and segments -/

/-- The text of a chunk is read as the chunk. -/
theorem reads_chunkText (chunk : List UInt8) : Reads (chunkText chunk).toList chunk := by
  have hread := reads_tokens (isChain_chunkTokens chunk)
  rwa [tokensText_chunkTokens, tokensBytes_chunkTokens] at hread

theorem read_chunkText (chunk : List UInt8) : Body.read (chunkText chunk) = .ok chunk :=
  reads_chunkText chunk 0

theorem mapM_read_chunkText (chunks : List (List UInt8)) :
    (chunks.map chunkText).mapM Body.read = .ok chunks := by
  induction chunks with
  | nil => rfl
  | cons chunk chunks ih =>
      rw [List.map_cons, List.mapM_cons, read_chunkText, ih]
      rfl

/-- **Round trip.** Every segment of any bytes under any cap is read back, and the bytes read from
the segments in order, joined, are the bytes spelled. -/
theorem read_segments (bytes : List UInt8) (maxWidth : Nat) :
    ∃ parts, (ofBytes bytes maxWidth).segments.mapM Body.read = .ok parts
      ∧ parts.flatten = bytes := by
  refine ⟨chunks maxWidth bytes, ?_, flatten_chunks maxWidth bytes⟩
  rw [segments_ofBytes, mapM_read_chunkText]

end ByteEmbed.Literal
