import Mathlib.Data.List.Basic
import ByteEmbed.Proofs.Literal.Chunk

/-!
# ByteEmbed.Proofs.Literal.Cut — where bytes are cut into chunks, told without the loop.

`Cut` says which lists of chunks the bytes may be cut into.  It knows the spelling of a byte and
which spelling swallows which, and nothing of a text that is written and cut short again, or of
looking one byte ahead: a chunk ends at its first byte where its text, with the marker owed to the
next byte of the input, is wider than the cap, or where the input ends.  There is always one such
list, and the segments are its texts (`segments_eq_map_spelled`).
-/

namespace ByteEmbed.Literal

/-! ## Texts -/

/-- What `byte` owes to the byte after it, if there is one: a marker exactly when its spelling
swallows that of the other. -/
def owed (byte : UInt8) : Option UInt8 → String
  | none => ""
  | some next =>
    if (Spelling.ofByte byte).swallows (Spelling.ofByte next) then Spelling.marker else ""

/-- The spellings of the bytes of a chunk, each with what it owes to the next one of the chunk. -/
def spelled : List UInt8 → String
  | [] => ""
  | byte :: chunk => (Spelling.ofByte byte).text ++ owed byte chunk.head? ++ spelled chunk

theorem separator_eq_owed (byte : UInt8) (following : List UInt8) :
    separator byte following = owed byte following.head? := by
  cases following with
  | nil => rfl
  | cons next following => rfl

theorem chunkText_eq_spelled (chunk : List UInt8) : chunkText chunk = spelled chunk := by
  induction chunk with
  | nil => rfl
  | cons byte chunk ih => rw [chunkText_cons, ih, separator_eq_owed, spelled]

/-- What the loop has written when `byte` was the last: the chunk so far, and what that byte owes to
the next one of the input. -/
theorem textBefore_eq_spelled (following opened : List UInt8) (byte : UInt8) :
    textBefore following (opened ++ [byte])
      = spelled (opened ++ [byte]) ++ owed byte following.head? := by
  rw [textBefore_snoc, ← chunkText_snoc, chunkText_eq_spelled, separator_eq_owed]

/-! ## Where a chunk ends -/

/-- A chunk of the bytes of `opened` and then `byte` is wider than the cap, with what its last byte
owes to the next one of the input. -/
def Overflows (maxWidth : Nat) (opened : List UInt8) (byte : UInt8) (following : List UInt8) :
    Prop :=
  maxWidth < (spelled (opened ++ [byte]) ++ owed byte following.head?).length

/-- `chunk` ends where it has to when `rest` follows: each of its bytes is the last exactly if the
chunk overflows there or the input ends. -/
def EndsBefore (maxWidth : Nat) (chunk rest : List UInt8) : Prop :=
  ∀ opened byte more, chunk = opened ++ byte :: more →
    (more = [] ↔ Overflows maxWidth opened byte (more ++ rest) ∨ more ++ rest = [])

/-- The bytes are cut into chunks, each of which ends where it has to. -/
inductive Cut (maxWidth : Nat) : List UInt8 → List (List UInt8) → Prop
  | nil : Cut maxWidth [] []
  | cons {chunk rest : List UInt8} {parts : List (List UInt8)} (nonempty : chunk ≠ [])
      (ends : EndsBefore maxWidth chunk rest) (following : Cut maxWidth rest parts) :
      Cut maxWidth (chunk ++ rest) (chunk :: parts)

variable {maxWidth : Nat} {bytes : List UInt8} {parts : List (List UInt8)}

theorem Cut.flatten (h : Cut maxWidth bytes parts) : parts.flatten = bytes := by
  induction h with
  | nil => rfl
  | cons _ _ _ ih => rw [List.flatten_cons, ih]

theorem Cut.nil_notMem (h : Cut maxWidth bytes parts) : [] ∉ parts := by
  induction h with
  | nil => exact List.not_mem_nil
  | cons nonempty _ _ ih =>
      intro hmem
      rcases List.mem_cons.mp hmem with hnil | hmem
      · exact nonempty hnil.symm
      · exact ih hmem

/-! ## The chunks of the loop -/

section

variable {opened following : List UInt8} {byte : UInt8}

theorem overflows_iff :
    Overflows maxWidth opened byte following
      ↔ maxWidth < (textBefore following (opened ++ [byte])).utf8ByteSize := by
  rw [utf8ByteSize_textBefore, textBefore_eq_spelled, Overflows]

/-- The loop closes the segment where it overflows, -/
theorem chunksFrom_of_overflows (h : Overflows maxWidth opened byte following) :
    chunksFrom maxWidth opened (byte :: following)
      = (opened ++ [byte]) :: chunks maxWidth following := by
  rw [chunksFrom, if_pos (overflows_iff.mp h)]
  rfl

/-- and nowhere before. -/
theorem chunksFrom_of_not_overflows (h : ¬ Overflows maxWidth opened byte following) :
    chunksFrom maxWidth opened (byte :: following)
      = chunksFrom maxWidth (opened ++ [byte]) following := by
  rw [chunksFrom, if_neg fun hwide => h (overflows_iff.mpr hwide)]

end

/-- The loop goes on to where the chunk has to end. -/
theorem chunksFrom_append {opened more rest : List UInt8} (hne : more ≠ [])
    (h : EndsBefore maxWidth (opened ++ more) rest) :
    chunksFrom maxWidth opened (more ++ rest) = (opened ++ more) :: chunks maxWidth rest := by
  induction more generalizing opened with
  | nil => exact absurd rfl hne
  | cons byte more ih =>
      have hends := h opened byte more rfl
      rw [List.cons_append]
      cases more with
      | nil =>
          by_cases hwide : Overflows maxWidth opened byte ([] ++ rest)
          · exact chunksFrom_of_overflows hwide
          · -- the input ends, and the segment is closed behind the loop
            obtain rfl : rest = [] := (hends.mp rfl).resolve_left hwide
            rw [chunksFrom_of_not_overflows hwide]
            simp [chunksFrom, chunks]
      | cons next more =>
          obtain ⟨hnarrow, -⟩ := not_or.mp fun hend => List.cons_ne_nil next more (hends.mpr hend)
          have happend : opened ++ byte :: next :: more = (opened ++ [byte]) ++ next :: more := by
            simp
          rw [chunksFrom_of_not_overflows hnarrow, happend]
          exact ih (List.cons_ne_nil next more) (happend ▸ h)

theorem chunks_append {chunk rest : List UInt8} (hne : chunk ≠ [])
    (h : EndsBefore maxWidth chunk rest) :
    chunks maxWidth (chunk ++ rest) = chunk :: chunks maxWidth rest :=
  chunksFrom_append hne h

/-- The bytes can be cut in one way at most: as the loop does. -/
theorem Cut.eq_chunks (h : Cut maxWidth bytes parts) : parts = chunks maxWidth bytes := by
  induction h with
  | nil => rfl
  | cons nonempty ends _ ih => rw [chunks_append nonempty ends, ih]

/-- A byte of an open segment that was given one more is that one, or it was there before. -/
theorem eq_of_append_singleton_eq {opened before more : List UInt8} {last byte : UInt8}
    (h : opened ++ [last] = before ++ byte :: more) :
    (more = [] ∧ opened = before ∧ last = byte)
      ∨ ∃ between, more = between ++ [last] ∧ opened = before ++ byte :: between := by
  rcases List.eq_nil_or_concat' more with rfl | ⟨between, other, rfl⟩
  · obtain ⟨rfl, hlast⟩ := List.append_inj' h rfl
    exact .inl ⟨rfl, rfl, List.singleton_inj.mp hlast⟩
  · rw [← List.cons_append, ← List.append_assoc] at h
    obtain ⟨rfl, hlast⟩ := List.append_inj' h rfl
    exact .inr ⟨between, by rw [List.singleton_inj.mp hlast], rfl⟩

/-- An open segment that has nowhere overflowed is cut, with the bytes that follow, as the loop
does. -/
theorem cut_chunksFrom {opened following : List UInt8}
    (hopen : ∀ before byte more, opened = before ++ byte :: more →
      ¬ Overflows maxWidth before byte (more ++ following)) :
    Cut maxWidth (opened ++ following) (chunksFrom maxWidth opened following) := by
  induction following generalizing opened with
  | nil =>
      cases opened with
      | nil => exact .nil
      | cons first opened =>
          refine .cons (List.cons_ne_nil first opened) ?_ .nil
          intro before byte more hbyte
          rw [or_iff_right (hopen before byte more hbyte), List.append_nil]
  | cons next following ih =>
      have hrest : Cut maxWidth following (chunks maxWidth following) :=
        @ih [] fun before byte more hnil => by simp at hnil
      by_cases hwide : Overflows maxWidth opened next following
      · rw [chunksFrom_of_overflows hwide, List.append_cons]
        refine .cons (by simp) ?_ hrest
        intro before byte more hbyte
        rcases eq_of_append_singleton_eq hbyte with ⟨rfl, rfl, rfl⟩ | ⟨between, rfl, hopened⟩
        · exact iff_of_true rfl (.inl hwide)
        · have hnarrow := hopen before byte between hopened
          rw [List.append_cons] at hnarrow
          exact iff_of_false (by simp) (not_or.mpr ⟨hnarrow, by simp⟩)
      · rw [chunksFrom_of_not_overflows hwide, List.append_cons]
        refine ih fun before byte more hbyte => ?_
        rcases eq_of_append_singleton_eq hbyte with ⟨rfl, rfl, rfl⟩ | ⟨between, rfl, hopened⟩
        · exact hwide
        · rw [← List.append_cons]
          exact hopen before byte between hopened

theorem cut_chunks (maxWidth : Nat) (bytes : List UInt8) :
    Cut maxWidth bytes (chunks maxWidth bytes) :=
  @cut_chunksFrom maxWidth [] bytes fun before byte more hnil => by simp at hnil

theorem segments_ofBytes_spelled (bytes : List UInt8) (maxWidth : Nat) :
    (ofBytes bytes maxWidth).segments = (chunks maxWidth bytes).map spelled := by
  rw [segments_ofBytes]
  exact List.map_congr_left fun chunk _ => chunkText_eq_spelled chunk

/-- **Segments are the texts of chunks that end where they have to.** The bytes can be cut in one
way into consecutive chunks that are not empty and end where they overflow, or with the input; the
segments are the texts of these chunks, in order. -/
theorem segments_eq_map_spelled (bytes : List UInt8) (maxWidth : Nat) :
    ∃ parts, Cut maxWidth bytes parts ∧ parts.flatten = bytes ∧ [] ∉ parts
      ∧ (ofBytes bytes maxWidth).segments = parts.map spelled
      ∧ ∀ other, Cut maxWidth bytes other → other = parts := by
  have hcut := cut_chunks maxWidth bytes
  exact ⟨chunks maxWidth bytes, hcut, hcut.flatten, hcut.nil_notMem,
    segments_ofBytes_spelled bytes maxWidth, fun other hother => hother.eq_chunks⟩

/-- Four characters are within the cap, and the marker owed to the digit is not: it counts, and yet
is never written. -/
example : (ofBytes [0x01, 0x32] 5).segments = ["\\x01", "2"] := by decide

end ByteEmbed.Literal
