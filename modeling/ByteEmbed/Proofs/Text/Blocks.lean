import ByteEmbed.Proofs.Text.Lines

/-!
# ByteEmbed.Proofs.Text.Blocks — the blocks of a text.

Two line feeds in a row end a block.  Blocks that are joined by two line feeds are read back when
none of them has an empty line (`blocks_intercalate`).  The first and the last line count as well: a
block that ended in a line feed would give it to the cut behind it, and the cut would come one
character too early.
-/

namespace ByteEmbed.Text

/-- The blocks of the characters to come, when `read` has been read of the first one. -/
def blocksFrom (read : String) : List Char → List String
  | [] => [read]
  | '\n' :: '\n' :: text => read :: blocksFrom "" text
  | c :: text => blocksFrom (read.push c) text

/-- The blocks of a text: what stands between line feeds, two in a row.  Each pair is taken where it
is first met. -/
def blocks (text : String) : List String := blocksFrom "" text.toList

theorem blocksFrom_of_ne {c : Char} {text : List Char} (h : c = '\n' → text.head? ≠ some '\n')
    (read : String) : blocksFrom read (c :: text) = blocksFrom (read.push c) text := by
  rw [blocksFrom]
  intro rest hc htext
  apply h hc
  rw [htext, List.head?_cons]

/-! ## Texts without empty lines -/

/-- No line of the text is empty. -/
def Solid (text : List Char) : Prop := [] ∉ text.splitOn '\n'

theorem solid_cons_line_iff {line : List Char} (h : '\n' ∉ line) (rest : List Char) :
    Solid (line ++ '\n' :: rest) ↔ line ≠ [] ∧ Solid rest := by
  rw [Solid, List.splitOn_append_cons_self_of_not_mem h, List.mem_cons, not_or]
  exact and_congr_left fun _ => ⟨Ne.symm, Ne.symm⟩

/-- Joined lines of which none is empty. -/
theorem solid_intercalate {lines : List String} (hne : lines ≠ [])
    (hlines : ∀ line ∈ lines, line ≠ "" ∧ '\n' ∉ line.toList) :
    Solid ("\n".intercalate lines).toList := by
  have hfeeds : ∀ line ∈ lines.map String.toList, '\n' ∉ line := by
    intro line hline
    obtain ⟨line, hmem, rfl⟩ := List.mem_map.mp hline
    exact (hlines line hmem).2
  have htext : ("\n".intercalate lines).toList = ['\n'].intercalate (lines.map String.toList) := by
    simp
  rw [Solid, htext, List.splitOn_intercalate '\n' hfeeds (by simpa using hne)]
  intro hmem
  obtain ⟨line, hline, hnil⟩ := List.mem_map.mp hmem
  exact (hlines line hline).1 (String.toList_eq_nil_iff.mp hnil)

/-- A text without empty lines starts with a character of its first line. -/
theorem Solid.exists_cons {text : List Char} (h : Solid text) :
    ∃ c rest, text = c :: rest ∧ c ≠ '\n' := by
  cases text with
  | nil => exact absurd (List.mem_singleton.mpr rfl) h
  | cons c rest =>
      refine ⟨c, rest, rfl, ?_⟩
      rintro rfl
      -- the line in front of the line feed would be empty
      have hline : [] ≠ [] ∧ Solid rest := (solid_cons_line_iff List.not_mem_nil rest).mp h
      exact hline.1 rfl

/-! ## Reading blocks back -/

/-- A line is a part of the block it stands in. -/
theorem blocksFrom_line {line : List Char} (h : '\n' ∉ line) (read : String) (text : List Char) :
    blocksFrom read (line ++ text) = blocksFrom (read ++ String.ofList line) text := by
  induction line generalizing read with
  | nil => simp
  | cons c line ih =>
      rw [List.mem_cons, not_or] at h
      rw [List.cons_append, blocksFrom_of_ne fun hc => absurd hc.symm h.1, ih h.2,
        push_append_ofList]

/-- Reading goes on behind a text without empty lines as it does behind a line. -/
theorem blocksFrom_solid {block : List Char} (h : Solid block) (read : String) (text : List Char) :
    blocksFrom read (block ++ text) = blocksFrom (read ++ String.ofList block) text := by
  induction block using line_induction generalizing read with
  | last line hline => exact blocksFrom_line hline read text
  | more line rest hline ih =>
      have hrest := ((solid_cons_line_iff hline rest).mp h).2
      obtain ⟨c, tail, rfl, hc⟩ := hrest.exists_cons
      -- the line feed between the two is not followed by another one
      have hnext : '\n' = '\n' → (c :: tail ++ text).head? ≠ some '\n' := by
        intro _ hhead
        exact hc (Option.some.inj hhead)
      rw [List.append_assoc, List.cons_append, blocksFrom_line hline, blocksFrom_of_ne hnext,
        ih hrest, push_append_ofList, String.append_assoc, ← String.ofList_append]

/-- **Blocks are read back.** -/
theorem blocks_intercalate {parts : List String} (hne : parts ≠ [])
    (h : ∀ part ∈ parts, Solid part.toList) : blocks ("\n\n".intercalate parts) = parts := by
  unfold blocks
  induction parts with
  | nil => exact absurd rfl hne
  | cons part parts ih =>
      have hpart := h part List.mem_cons_self
      cases parts with
      | nil =>
          have hread := blocksFrom_solid hpart "" []
          rw [List.append_nil, String.empty_append, String.ofList_toList] at hread
          rw [String.intercalate_singleton, hread, blocksFrom]
      | cons next parts =>
          have hrest := ih (by simp) fun p hp => h p (List.mem_cons_of_mem _ hp)
          have htext : ("\n\n".intercalate (part :: next :: parts)).toList
              = part.toList ++ '\n' :: '\n' :: ("\n\n".intercalate (next :: parts)).toList := by
            rw [String.intercalate_cons_cons]
            simp
          rw [htext, blocksFrom_solid hpart, blocksFrom, String.empty_append, String.ofList_toList,
            hrest]

end ByteEmbed.Text
