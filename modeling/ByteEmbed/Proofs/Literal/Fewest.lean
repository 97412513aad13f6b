import Mathlib.Data.List.Basic
import ByteEmbed.Proofs.Literal.Cut

/-!
# ByteEmbed.Proofs.Literal.Fewest — no other way of cutting the bytes needs fewer segments.

The cap is a rule on a chunk alone: without the spelling of its last byte, and with the marker in
front of that, its text is no wider (`Obeys`).  Every chunk of the loop obeys it, and no chunk that
obeys it can start with one of the loop and go on.  Since the end of a chunk that obeys the rule
obeys it as well, the loop is never behind: wherever another cut has come to after some chunks, the
loop has come at least as far with as many (`Cut.length_le`).
-/

namespace ByteEmbed.Literal

variable {maxWidth : Nat}

/-! ## The rule -/

/-- Without the spelling of its last byte the text of `chunk`, with the marker in front of that
byte if there is one, is no wider than the cap. -/
def Obeys (maxWidth : Nat) (chunk : List UInt8) : Prop :=
  ∀ opened last text, chunk = opened ++ [last] →
    spelled chunk = text ++ (Spelling.ofByte last).text → text.length ≤ maxWidth

theorem obeys_nil : Obeys maxWidth [] := by
  intro opened last text hnil
  simp at hnil

theorem obeys_iff {opened : List UInt8} {last : UInt8} :
    Obeys maxWidth (opened ++ [last]) ↔ (textBefore [last] opened).length ≤ maxWidth := by
  have hspelled : spelled (opened ++ [last])
      = textBefore [last] opened ++ (Spelling.ofByte last).text := by
    rw [← chunkText_eq_spelled, chunkText_snoc []]
  constructor
  · intro h
    exact h opened last _ rfl hspelled
  · rintro h opened' last' text heq htext
    obtain ⟨rfl, hlast⟩ := List.append_inj' heq rfl
    obtain rfl := List.singleton_inj.mp hlast
    rw [hspelled] at htext
    rwa [← (String.append_left_inj _).mp htext]

theorem Obeys.mono {wider : Nat} (hwider : maxWidth ≤ wider) {chunk : List UInt8}
    (h : Obeys maxWidth chunk) : Obeys wider chunk :=
  fun opened last text hchunk htext => Nat.le_trans (h opened last text hchunk htext) hwider

/-- The end of a chunk that obeys the rule obeys it. -/
theorem Obeys.of_append {before chunk : List UInt8} (h : Obeys maxWidth (before ++ chunk)) :
    Obeys maxWidth chunk := by
  rcases List.eq_nil_or_concat' chunk with rfl | ⟨opened, last, rfl⟩
  · exact obeys_nil
  · rw [← List.append_assoc, obeys_iff, textBefore_append, String.length_append] at h
    rw [obeys_iff]
    omega

/-- A chunk that obeys the rule and goes on behind `byte` does not overflow there. -/
theorem Obeys.not_overflows {opened more : List UInt8} {byte : UInt8} (hne : more ≠ [])
    (h : Obeys maxWidth (opened ++ byte :: more)) (rest : List UInt8) :
    ¬ Overflows maxWidth opened byte (more ++ rest) := by
  obtain ⟨between, last, rfl⟩ := (List.eq_nil_or_concat' more).resolve_left hne
  have hhead : (between ++ [last] ++ rest).head? = (between ++ [last]).head? := by
    simp [List.head?_append]
  rw [overflows_iff, utf8ByteSize_textBefore, textBefore_congr hhead]
  rw [List.append_cons, ← List.append_assoc, obeys_iff, textBefore_append,
    String.length_append] at h
  omega

/-- A chunk that ends where it has to obeys the rule. -/
theorem EndsBefore.obeys {chunk rest : List UInt8} (h : EndsBefore maxWidth chunk rest) :
    Obeys maxWidth chunk := by
  rcases List.eq_nil_or_concat' chunk with rfl | ⟨opened, last, rfl⟩
  · exact obeys_nil
  rw [obeys_iff]
  rcases List.eq_nil_or_concat' opened with rfl | ⟨before, byte, rfl⟩
  · -- a single byte has nothing in front of it
    simp [textBefore]
  · -- the chunk has gone on behind `byte`, so it does not overflow there
    have hends := h before byte [last] (by simp)
    have hnarrow : ¬ Overflows maxWidth before byte ([last] ++ rest) :=
      fun hwide => List.cons_ne_nil last [] (hends.mpr (.inl hwide))
    have hhead : ([last] ++ rest).head? = [last].head? := rfl
    rw [overflows_iff, utf8ByteSize_textBefore, textBefore_congr hhead] at hnarrow
    exact Nat.not_lt.mp hnarrow

theorem Cut.obeys {bytes : List UInt8} {parts : List (List UInt8)} (h : Cut maxWidth bytes parts) :
    ∀ part ∈ parts, Obeys maxWidth part := by
  induction h with
  | nil => exact fun part hpart => (List.not_mem_nil hpart).elim
  | cons _ ends _ ih =>
      intro part hpart
      rcases List.mem_cons.mp hpart with rfl | hpart
      · exact ends.obeys
      · exact ih part hpart

/-! ## The loop is never behind -/

/-- Where a chunk of the loop starts, no chunk that obeys the rule gets further. -/
theorem EndsBefore.length_le {chunk rest other tail : List UInt8} (hne : chunk ≠ [])
    (h : EndsBefore maxWidth chunk rest) (hobeys : Obeys maxWidth other)
    (hbytes : chunk ++ rest = other ++ tail) : other.length ≤ chunk.length := by
  by_contra hlonger
  obtain ⟨more, rfl⟩ : chunk <+: other :=
    List.prefix_of_prefix_length_le ⟨rest, hbytes⟩ (List.prefix_append other tail) (by omega)
  have hmore : more ≠ [] := by
    rintro rfl
    simp at hlonger
  obtain ⟨opened, byte, rfl⟩ := (List.eq_nil_or_concat' chunk).resolve_left hne
  obtain rfl : rest = more ++ tail := by
    rw [List.append_assoc (opened ++ [byte])] at hbytes
    exact List.append_cancel_left hbytes
  rw [List.append_assoc] at hobeys
  rcases (h opened byte [] rfl).mp rfl with hwide | hlast
  · exact hobeys.not_overflows hmore tail hwide
  · exact hmore (List.append_eq_nil_iff.mp (List.nil_append _ ▸ hlast)).1

/-- Chunks that obey the rule are at least as many as the loop cuts from the end of their bytes. -/
theorem Cut.length_le {bytes : List UInt8} {parts : List (List UInt8)}
    (h : Cut maxWidth bytes parts) {others : List (List UInt8)}
    (hsuffix : bytes <:+ others.flatten) (hobeys : ∀ other ∈ others, Obeys maxWidth other) :
    parts.length ≤ others.length := by
  -- the induction is on the other chunks: after each of them the loop is as far or further on
  induction others generalizing bytes parts with
  | nil =>
      have hnil : parts.flatten = [] := h.flatten.trans (List.suffix_nil.mp hsuffix)
      have hparts : parts = [] := by
        cases h with
        | nil => rfl
        | cons nonempty _ _ => exact absurd (List.append_eq_nil_iff.mp hnil).1 nonempty
      exact Nat.le_of_eq (congrArg List.length hparts)
  | cons other others ih =>
      have hobeys' : ∀ other ∈ others, Obeys maxWidth other :=
        fun part hpart => hobeys part (List.mem_cons_of_mem _ hpart)
      obtain ⟨early, hearly⟩ := hsuffix
      rcases List.append_eq_append_iff.mp hearly with ⟨late, rfl, hbytes⟩ | ⟨between, -, hothers⟩
      · cases h with
        | nil => exact Nat.zero_le _
        | @cons chunk rest parts nonempty ends following =>
            have hlate := ends.length_le nonempty (hobeys _ List.mem_cons_self).of_append hbytes
            have hrest : rest <:+ others.flatten := by
              refine List.suffix_of_suffix_length_le ⟨chunk, hbytes⟩ (List.suffix_append _ _) ?_
              have hlength := congrArg List.length hbytes
              rw [List.length_append, List.length_append] at hlength
              omega
            exact Nat.succ_le_succ (ih following hrest hobeys')
      · -- the loop has passed the whole of `other` already
        exact Nat.le_succ_of_le (ih h ⟨between, hothers.symm⟩ hobeys')

/-! ## Segments -/

theorem length_spelled_le {chunk : List UInt8} (h : Obeys maxWidth chunk) :
    (spelled chunk).length ≤ maxWidth + 4 := by
  rcases List.eq_nil_or_concat' chunk with rfl | ⟨opened, last, rfl⟩
  · exact Nat.zero_le _
  · have hwidth := (Spelling.ofByte last).width_le
    rw [obeys_iff] at h
    rw [← chunkText_eq_spelled, chunkText_snoc [], String.length_append, Spelling.length_text]
    omega

theorem spelled_ne_empty {chunk : List UInt8} (h : chunk ≠ []) : spelled chunk ≠ "" := by
  rw [← chunkText_eq_spelled]
  exact mt (textBefore_eq_empty_iff [] chunk).mp h

/-- The segments are no more than any other chunks of the bytes that obey the rule. -/
theorem size_ofBytes_le {bytes : List UInt8} {others : List (List UInt8)}
    (hflatten : others.flatten = bytes) (hobeys : ∀ other ∈ others, Obeys maxWidth other) :
    (ofBytes bytes maxWidth).size ≤ others.length := by
  rw [size, segments_ofBytes, List.length_map]
  exact (cut_chunks maxWidth bytes).length_le (hflatten ▸ List.suffix_refl _) hobeys

/-- **The fewest segments that obey the cap.** The segments are the texts of chunks that obey the
rule, none is empty, and none is wider than the cap by more than the four characters that a spelling
can have.  No other chunks of the bytes that obey the rule are fewer; so a larger cap never makes
for more segments. -/
theorem ofBytes_fewest (bytes : List UInt8) (maxWidth : Nat) :
    (∃ parts : List (List UInt8), (ofBytes bytes maxWidth).segments = parts.map spelled
      ∧ parts.flatten = bytes ∧ [] ∉ parts ∧ ∀ part ∈ parts, Obeys maxWidth part)
    ∧ (∀ segment ∈ (ofBytes bytes maxWidth).segments,
      segment ≠ "" ∧ segment.length ≤ maxWidth + 4)
    ∧ (∀ others : List (List UInt8), others.flatten = bytes → [] ∉ others →
      (∀ other ∈ others, Obeys maxWidth other) →
      (ofBytes bytes maxWidth).size ≤ others.length)
    ∧ ∀ wider, maxWidth ≤ wider → (ofBytes bytes wider).size ≤ (ofBytes bytes maxWidth).size := by
  have hcut := cut_chunks maxWidth bytes
  have hsegments := segments_ofBytes_spelled bytes maxWidth
  refine ⟨⟨_, hsegments, hcut.flatten, hcut.nil_notMem, hcut.obeys⟩, fun segment hsegment => ?_,
    fun others hflatten _ hobeys => size_ofBytes_le hflatten hobeys, fun wider hwider => ?_⟩
  · rw [hsegments] at hsegment
    obtain ⟨chunk, hchunk, rfl⟩ := List.mem_map.mp hsegment
    exact ⟨spelled_ne_empty (ne_nil_of_mem_chunks hchunk), length_spelled_le (hcut.obeys _ hchunk)⟩
  · -- what obeys a cap obeys a wider one
    have hsize : (ofBytes bytes maxWidth).size = (chunks maxWidth bytes).length := by
      rw [size, hsegments, List.length_map]
    rw [hsize]
    exact size_ofBytes_le hcut.flatten fun part hpart => (hcut.obeys part hpart).mono hwider

end ByteEmbed.Literal
