import Mathlib.Data.List.DropRight
import Mathlib.Data.List.Induction
import ByteEmbed.Proofs.Literal.Token
import ByteEmbed.Proofs.Snippet

/-!
# ByteEmbed.Proofs.Snippet.Lines — the lines of an inline statement.

A body of assembly without backslashes keeps its lines in the source: each is a line of its own
there, between two quotes, also when it is empty, and also the empty one behind a last line feed.
The quotes of the body get their backslash before the lines get their quotes (`flatMap_asmChar`), so
that the only bare quotes are those two (`QuotesEscaped`), and what stands between them is read back
as the line (`sourceText_lines`).  Nothing is read back of the line feeds: they stand between literals.
-/

namespace ByteEmbed.Snippet

open Body (Reads)
open Text (Utf8.encode Utf8.ascii_of_all line_induction)

/-! ## Two replacements -/

/-- The text with another text in place of a character, wherever it stands. -/
def replaced (old : Char) (new text : List Char) : List Char :=
  text.flatMap fun c => if c = old then new else [c]

/-- What is written of a body is what two replacements make of it: the quotes get their backslash
first, and then the lines get quotes of their own, which are not escaped any more. -/
theorem flatMap_asmChar (body : List Char) :
    body.flatMap asmChar
      = replaced '\n' ['"', '\n', '"'] (replaced '"' ['\\', '"'] body) := by
  rw [replaced, replaced, List.flatMap_assoc]
  refine List.flatMap_congr fun c _ => ?_
  by_cases hquote : c = '"'
  · subst hquote
    decide
  · rw [if_neg hquote, List.flatMap_singleton, asmChar, if_neg hquote]

/-- In the other order the quotes around the lines would be escaped as well. -/
example : replaced '"' ['\\', '"'] (replaced '\n' ['"', '\n', '"'] ['\n'])
    = ['\\', '"', '\n', '\\', '"'] := by decide

/-! ## Quotes -/

/-- Every quote of the text is escaped: the backslashes right in front of it are odd in number. -/
def QuotesEscaped (text : List Char) : Prop :=
  ∀ before after, text = before ++ '"' :: after →
    (before.rtakeWhile (· == '\\')).length % 2 = 1

/-- What is written of a character other than the backslash does not end with one. -/
theorem exists_asmChar_eq {c : Char} (hback : c ≠ '\\') :
    ∃ start last, asmChar c = start ++ [last] ∧ last ≠ '\\' := by
  by_cases hquote : c = '"'
  · subst hquote
    exact ⟨['\\'], '"', by decide, by decide⟩
  by_cases hfeed : c = '\n'
  · subst hfeed
    exact ⟨['"', '\n'], '"', by decide, by decide⟩
  · exact ⟨[], c, asmChar_of_ne hquote hfeed, hback⟩

/-- No backslash is left open at the end of what is written of a line. -/
theorem rtakeWhile_flatMap_asmChar {line : List Char} (hback : '\\' ∉ line) :
    (line.flatMap asmChar).rtakeWhile (· == '\\') = [] := by
  rcases List.eq_nil_or_concat line with rfl | ⟨line, c, rfl⟩
  · rfl
  · have hc : c ≠ '\\' := by
      rintro rfl
      exact hback (by simp)
    obtain ⟨start, last, hchar, hlast⟩ := exists_asmChar_eq hc
    rw [List.concat_eq_append, List.flatMap_append, List.flatMap_singleton, hchar,
      ← List.append_assoc, List.rtakeWhile_concat_neg _ _ _ (by simpa using hlast)]

/-- A quote that is written for a character has one backslash of its own in front of it. -/
theorem start_of_asmChar_eq {c : Char} (hfeed : c ≠ '\n') {start after : List Char}
    (h : asmChar c = start ++ '"' :: after) : start = ['\\'] := by
  by_cases hquote : c = '"'
  · rw [hquote, asmChar_quote] at h
    cases start with
    | nil => cases h
    | cons d start =>
        rw [List.cons_append] at h
        obtain ⟨rfl, htail⟩ := List.cons.inj h
        have hlength := congrArg List.length htail
        simp only [List.length_append, List.length_cons, List.length_nil] at hlength
        have hnil : start = [] := List.length_eq_zero_iff.mp (by omega)
        rw [hnil]
  · rw [asmChar_of_ne hquote hfeed] at h
    cases start with
    | nil => exact absurd (List.cons.inj h).1 hquote
    | cons d start => simp at h

/-- The quotes of a line without backslashes are escaped, each by the backslash it is given. -/
theorem quotesEscaped_line {line : List Char} (hfeed : '\n' ∉ line) (hback : '\\' ∉ line) :
    QuotesEscaped (line.flatMap asmChar) := by
  -- what stands in front of a quote is not changed by what is written behind it
  induction line using List.reverseRecOn with
  | nil =>
      intro before after h
      simp at h
  | append_singleton line c ih =>
      rw [List.mem_append, List.mem_singleton, not_or] at hfeed hback
      have hfeed_c := Ne.symm hfeed.2
      intro before after h
      rw [List.flatMap_append, List.flatMap_singleton, List.append_eq_append_iff] at h
      rcases h with ⟨start, rfl, hchar⟩ | ⟨rest, hline, hrest⟩
      · obtain rfl := start_of_asmChar_eq hfeed_c hchar
        rw [List.rtakeWhile_concat_pos _ _ _ (by decide), rtakeWhile_flatMap_asmChar hback.1]
        rfl
      · cases rest with
        | nil =>
            have hchar : asmChar c = [] ++ '"' :: after := hrest.symm
            cases start_of_asmChar_eq hfeed_c hchar
        | cons d rest =>
            obtain ⟨rfl, -⟩ := List.cons.inj hrest
            exact ih hfeed.1 hback.1 before rest hline

/-! ## Reading -/

/-- A line without backslashes is read back from what is written of it. -/
theorem reads_line {line : List Char} (hfeed : '\n' ∉ line) (hback : '\\' ∉ line)
    (hascii : ∀ c ∈ line, c.val < 128) :
    Reads (line.flatMap asmChar) (line.map (·.val.toUInt8)) := by
  induction line with
  | nil => exact Reads.nil
  | cons c line ih =>
      rw [List.mem_cons, not_or] at hfeed hback
      have hrest := ih hfeed.2 hback.2 fun d hd => hascii d (List.mem_cons_of_mem _ hd)
      rw [List.flatMap_cons, List.map_cons]
      by_cases hquote : c = '"'
      · subst hquote
        exact Literal.reads_short (by decide) hrest
      · rw [asmChar_of_ne hquote (Ne.symm hfeed.1)]
        exact Reads.cons (fun offset => Body.item_plain offset (hascii c List.mem_cons_self)
          (Ne.symm hback.1) hquote _) hrest

/-! ## Lines -/

/-- A line of the body is one line of the source. -/
theorem feed_not_mem_asmLiterals {line : List Char} (hfeed : '\n' ∉ line) :
    '\n' ∉ asmLiterals line := by
  intro hmem
  have hbody : '\n' ∈ line.flatMap asmChar := by simpa [asmLiterals] using hmem
  obtain ⟨c, hc, hchar⟩ := List.mem_flatMap.mp hbody
  by_cases hquote : c = '"'
  · subst hquote
    exact absurd hchar (by decide)
  · have hne : c ≠ '\n' := fun h => hfeed (h ▸ hc)
    rw [asmChar_of_ne hquote hne] at hchar
    exact hne (List.mem_singleton.mp hchar).symm

/-- The lines of the source are those of the body, each in quotes. -/
theorem splitOn_asmLiterals (body : List Char) :
    (asmLiterals body).splitOn '\n' = (body.splitOn '\n').map asmLiterals := by
  induction body using line_induction with
  | last line hline =>
      rw [List.splitOn_eq_singleton hline,
        List.splitOn_eq_singleton (feed_not_mem_asmLiterals hline), List.map_singleton]
  | more line rest hline ih =>
      rw [asmLiterals_line, List.splitOn_append_cons_self_of_not_mem hline,
        List.splitOn_append_cons_self_of_not_mem (feed_not_mem_asmLiterals hline), ih,
        List.map_cons]

/-- **The lines of the source are the lines of the body.** For a body of ASCII without backslashes,
the text between the parentheses is cut at its line feeds into one line for each line of the body,
in order: a quote, a text that has no bare quote and is read back as the line, and a quote. -/
theorem sourceText_lines (snippet : Snippet) (hasm : snippet.language = .asm) (body : String)
    (hascii : ∀ c ∈ body.toList, c.val < 128) (hback : '\\' ∉ body.toList) :
    ∃ (text : String) (inners : List String),
      snippet.sourceText body = "void " ++ snippet.name ++ "()\x7b__asm__(" ++ text ++ ");\x7d"
      ∧ text.toList.splitOn '\n' = inners.map (fun inner => '"' :: (inner.toList ++ ['"']))
      ∧ List.Forall₂ (fun inner line => QuotesEscaped inner.toList
            ∧ Body.read inner = .ok (Utf8.encode (String.ofList line)))
          inners (body.toList.splitOn '\n') := by
  refine ⟨String.ofList (asmLiterals body.toList),
    (body.toList.splitOn '\n').map fun line => String.ofList (line.flatMap asmChar),
    sourceText_asm hasm body, ?_, ?_⟩
  · rw [String.toList_ofList, splitOn_asmLiterals, List.map_map]
    refine List.map_congr_left fun line _ => ?_
    rw [Function.comp_apply, String.toList_ofList, asmLiterals]
  · rw [List.forall₂_map_left_iff, List.forall₂_same]
    intro line hline
    have hfeed : '\n' ∉ line := fun hc => (mem_of_mem_splitOn hline hc).2 rfl
    have hplain : '\\' ∉ line := fun hc => hback (mem_of_mem_splitOn hline hc).1
    have hchars : ∀ c ∈ line, c.val < 128 := fun c hc => hascii c (mem_of_mem_splitOn hline hc).1
    refine ⟨?_, ?_⟩
    · rw [String.toList_ofList]
      exact quotesEscaped_line hfeed hplain
    · rw [Body.read, String.toList_ofList, encode_line hchars]
      exact reads_line hfeed hplain hchars 0

/-- Quotes next to line ends, an empty line, and a line feed at the end. -/
theorem sourceText_lines_quotes :
    (⟨"f", .asm, by decide⟩ : Snippet).language = .asm
    ∧ (∀ c ∈ "nop\n\n\"a\"\n".toList, c.val < 128)
    ∧ '\\' ∉ "nop\n\n\"a\"\n".toList
    ∧ ∃ (text : String) (inners : List String),
        (⟨"f", .asm, by decide⟩ : Snippet).sourceText "nop\n\n\"a\"\n"
          = "void f()\x7b__asm__(" ++ text ++ ");\x7d"
        ∧ text.toList.splitOn '\n' = inners.map (fun inner => '"' :: (inner.toList ++ ['"']))
        ∧ List.Forall₂ (fun inner bytes => Body.read inner = .ok bytes) inners
            [[0x6e, 0x6f, 0x70], [], [0x22, 0x61, 0x22], []] := by
  have hascii : ∀ c ∈ "nop\n\n\"a\"\n".toList, c.val < 128 := Utf8.ascii_of_all (by decide)
  have hback : '\\' ∉ "nop\n\n\"a\"\n".toList := by decide
  obtain ⟨text, inners, htext, hlines, hread⟩ :=
    sourceText_lines ⟨"f", .asm, by decide⟩ rfl "nop\n\n\"a\"\n" hascii hback
  have hbytes : ("nop\n\n\"a\"\n".toList.splitOn '\n').map
        (fun line => Utf8.encode (String.ofList line))
      = [[0x6e, 0x6f, 0x70], [], [0x22, 0x61, 0x22], []] := by decide +kernel
  refine ⟨rfl, hascii, hback, text, inners, htext, hlines, ?_⟩
  rw [← hbytes, List.forall₂_map_right_iff]
  exact hread.imp fun _ _ h => h.2

end ByteEmbed.Snippet
