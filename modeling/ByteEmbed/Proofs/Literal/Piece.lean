import Mathlib.Data.List.SplitBy
import ByteEmbed.Proofs.Literal.Chunk

/-!
# ByteEmbed.Proofs.Literal.Piece — chunks cut into pieces that need no marker.

For a C compiler a marker closes one literal and opens the next, so a segment is several literals:
one for each *piece* of its chunk.  Within a piece no byte's spelling swallows the next one; at the
end of each piece but the last one does.  The text of a chunk is the texts of its pieces, which are
spellings and nothing else, with a marker between two of them.
-/

namespace ByteEmbed.Literal

/-- Whether the spelling of `next` may stand right after that of `byte`. -/
def adjoins (byte next : UInt8) : Bool :=
  !(Spelling.ofByte byte).swallows (Spelling.ofByte next)

/-- The pieces of a chunk: it is cut between two bytes that need a marker. -/
def pieces (chunk : List UInt8) : List (List UInt8) := chunk.splitBy adjoins

/-- The spellings of the bytes of a piece. -/
def pieceText (piece : List UInt8) : List Char :=
  piece.flatMap fun byte => (Spelling.ofByte byte).text.toList

theorem flatten_pieces (chunk : List UInt8) : (pieces chunk).flatten = chunk :=
  List.flatten_splitBy adjoins chunk

theorem separator_of_adjoins {byte next : UInt8} (h : adjoins byte next = true)
    (following : List UInt8) : separator byte (next :: following) = "" := by
  simp only [adjoins, Bool.not_eq_true'] at h
  simp [separator, needsMarker, h]

theorem separator_of_not_adjoins {byte next : UInt8} (h : adjoins byte next = false)
    (following : List UInt8) : separator byte (next :: following) = Spelling.marker := by
  simp only [adjoins, Bool.not_eq_false'] at h
  simp [separator, needsMarker, h]

/-- Within a piece there is no marker; its last byte may owe one to what follows the piece. -/
theorem textBefore_piece (following : List UInt8) {piece : List UInt8} (hne : piece ≠ [])
    (hchain : piece.IsChain (fun x y => adjoins x y = true)) :
    (textBefore following piece).toList
      = pieceText piece ++ (separator (piece.getLast hne) following).toList := by
  induction piece with
  | nil => exact absurd rfl hne
  | cons byte piece ih =>
      cases piece with
      | nil => simp [textBefore, pieceText]
      | cons next piece =>
          obtain ⟨hadjoins, hrest⟩ := List.isChain_cons_cons.mp hchain
          have ih := ih (by simp) hrest
          rw [textBefore, List.cons_append, separator_of_adjoins hadjoins]
          simp only [String.append_empty, String.toList_append, ih, pieceText, List.flatMap_cons,
            List.getLast_cons_cons, List.append_assoc]

/-- The text of bytes that are cut into pieces wherever a marker is needed. -/
theorem chunkText_flatten {parts : List (List UInt8)} (hne : [] ∉ parts)
    (hchain : ∀ piece ∈ parts, piece.IsChain fun x y => adjoins x y = true)
    (hcuts : parts.IsChain fun p q => ∃ hp hq, adjoins (p.getLast hp) (q.head hq) = false) :
    (chunkText parts.flatten).toList
      = Spelling.marker.toList.intercalate (parts.map pieceText) := by
  induction parts with
  | nil => simp [chunkText, textBefore]
  | cons piece parts ih =>
      have hpiece : piece ≠ [] := fun h => hne (by simp [h])
      have htext : (chunkText (piece :: parts).flatten).toList
          = pieceText piece ++ (separator (piece.getLast hpiece) parts.flatten).toList
            ++ (chunkText parts.flatten).toList := by
        rw [chunkText, List.flatten_cons, textBefore_append, String.toList_append,
          List.append_nil, textBefore_piece _ hpiece (hchain piece (by simp))]
        rfl
      rw [htext]
      cases parts with
      | nil => simp [separator, needsMarker, chunkText, textBefore]
      | cons next parts =>
          have ih := ih (fun h => hne (by simp [h]))
            (fun p hp => hchain p (by simp [hp])) (List.isChain_cons_cons.mp hcuts).2
          have hnext : next ≠ [] := fun h => hne (by simp [h])
          obtain ⟨byte, bytes, rfl⟩ := List.exists_cons_of_ne_nil hnext
          obtain ⟨_, _, hcut⟩ := (List.isChain_cons_cons.mp hcuts).1
          -- the last byte of the piece swallows the first byte of the next one
          have hmarker : separator (piece.getLast hpiece) ((byte :: bytes) :: parts).flatten
              = Spelling.marker := separator_of_not_adjoins hcut _
          rw [hmarker, ih]
          simp [List.intercalate_cons_cons]

/-- The text of a chunk is the texts of its pieces with a marker between two of them. -/
theorem toList_chunkText (chunk : List UInt8) :
    (chunkText chunk).toList
      = Spelling.marker.toList.intercalate ((pieces chunk).map pieceText) := by
  have htext : (chunkText (pieces chunk).flatten).toList = _ :=
    chunkText_flatten (List.nil_notMem_splitBy adjoins chunk)
      (fun piece hpiece => List.isChain_of_mem_splitBy hpiece)
      (List.isChain_getLast_head_splitBy adjoins chunk)
  rwa [flatten_pieces] at htext

end ByteEmbed.Literal
