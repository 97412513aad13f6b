import ByteEmbed.Proofs.CLiteral.Weight
import ByteEmbed.Proofs.Text.Lines
import ByteEmbed.Proofs.Text.Utf8
import ByteEmbed.Snippet

/-!
# ByteEmbed.Proofs.Snippet — what the assembler gets of a body of assembly.

A body is written between the parentheses of an inline statement with its quotes escaped, and with
every line between quotes of its own.  A compiler resolves the escapes and joins the literals, and
what that gives is handed to the assembler.  Two things do not come back.  The line feed between two
literals is white space, so the lines are run together.  A backslash is not escaped: it takes the
next character with it, and the text is then too light to mean the body.  So the body is read back
exactly when it has neither (`read_back_iff`), and of a body without backslashes everything but the
line feeds comes back (`literals?_asmLiterals`, `flatten_splitOn`).
-/

namespace ByteEmbed.Snippet

open CLiteral (literals? literals?_quoted literals?_space meaning? meaning?_plain meaning?_short
  Passes weigh weigh_literals?)
open Text (Utf8.encode line_induction)

/-- The text between the parentheses of the inline statement. -/
def asmLiterals (body : List Char) : List Char := '"' :: (body.flatMap asmChar ++ ['"'])

theorem sourceText_asm {snippet : Snippet} (h : snippet.language = .asm) (body : String) :
    snippet.sourceText body
      = "void " ++ snippet.name ++ "()\x7b__asm__(" ++ String.ofList (asmLiterals body.toList)
        ++ ");\x7d" := by
  rw [sourceText, h, ← String.toList_inj, asmLiterals]
  simp

/-! ## Weight -/

theorem asmChar_quote : asmChar '"' = ['\\', '"'] := by decide

theorem asmChar_of_ne {c : Char} (hquote : c ≠ '"') (hfeed : c ≠ '\n') : asmChar c = [c] := by
  rw [asmChar, if_neg hquote, if_neg hfeed]

/-- A character is written with a weight of two, a backslash with one. -/
theorem weigh_asmChar (c : Char) : weigh (asmChar c) + [c].count '\\' = 2 := by
  by_cases hquote : c = '"'
  · subst hquote
    decide
  by_cases hfeed : c = '\n'
  · subst hfeed
    decide
  by_cases hback : c = '\\'
  · subst hback
    decide
  · rw [asmChar_of_ne hquote hfeed, CLiteral.weigh_cons, CLiteral.weigh_nil,
      CLiteral.weight_of_ne hquote hback hfeed, List.count_eq_zero.mpr]
    simpa using Ne.symm hback

theorem weigh_asmLiterals (body : List Char) :
    weigh (asmLiterals body) + body.count '\\' = 2 * body.length + 2 := by
  have hbody : weigh (body.flatMap asmChar) + body.count '\\' = 2 * body.length := by
    induction body with
    | nil => rfl
    | cons c body ih =>
        have hc := weigh_asmChar c
        rw [List.flatMap_cons, CLiteral.weigh_append, ← List.singleton_append, List.count_append,
          List.length_append, List.length_singleton]
        omega
  have hquote : CLiteral.weight '"' = 1 := by decide
  rw [asmLiterals, CLiteral.weigh_cons, CLiteral.weigh_append, CLiteral.weigh_cons, hquote,
    CLiteral.weigh_nil]
  omega

/-- Literals that mean as many bytes as the body has characters leave no room for a backslash. -/
theorem backslash_not_mem {body : List Char} {parts : List (List UInt8)}
    (h : literals? (asmLiterals body) = some parts)
    (hlength : parts.flatten.length = body.length) : '\\' ∉ body := by
  have hweight := weigh_literals? h
  have hbody := weigh_asmLiterals body
  have hsome : parts.length ≠ 0 := by
    intro hnone
    rw [List.length_eq_zero_iff] at hnone
    subst hnone
    have hspace := CLiteral.isSpace_of_literals?_nil h '"' List.mem_cons_self
    cases hspace
  rw [← List.count_eq_zero]
  omega

/-! ## Lines -/

/-- The lines stand in quotes, each on a line of the source. -/
theorem asmLiterals_line (line rest : List Char) :
    asmLiterals (line ++ '\n' :: rest) = asmLiterals line ++ '\n' :: asmLiterals rest := by
  have hfeed : asmChar '\n' = ['"', '\n', '"'] := by decide
  simp only [asmLiterals, List.flatMap_append, List.flatMap_cons, hfeed, List.append_assoc,
    List.cons_append, List.nil_append]

/-- Cutting passes over a line without backslashes: its quotes are escaped. -/
theorem passes_line {line : List Char} (hfeed : '\n' ∉ line) (hback : '\\' ∉ line) :
    Passes (line.flatMap asmChar) := by
  induction line with
  | nil => exact .nil
  | cons c line ih =>
      rw [List.mem_cons, not_or] at hfeed hback
      have hrest := ih hfeed.2 hback.2
      rw [List.flatMap_cons]
      by_cases hquote : c = '"'
      · subst hquote
        exact (Passes.escape '"').append hrest
      · rw [asmChar_of_ne hquote (Ne.symm hfeed.1)]
        exact (Passes.plain hquote (Ne.symm hback.1) (Ne.symm hfeed.1)).append hrest

/-- A line without backslashes means its own characters. -/
theorem meaning?_line {line : List Char} (hfeed : '\n' ∉ line) (hback : '\\' ∉ line)
    (hascii : ∀ c ∈ line, c.val < 128) :
    meaning? (line.flatMap asmChar) = some (line.map (·.val.toUInt8)) := by
  induction line with
  | nil => rw [List.flatMap_nil, meaning?, List.map_nil]
  | cons c line ih =>
      rw [List.mem_cons, not_or] at hfeed hback
      have hrest := ih hfeed.2 hback.2 fun d hd => hascii d (List.mem_cons_of_mem _ hd)
      rw [List.flatMap_cons, List.map_cons]
      by_cases hquote : c = '"'
      · subst hquote
        rw [asmChar_quote, List.cons_append, List.singleton_append,
          meaning?_short (by decide : ('"', 0x22) ∈ Spelling.shortForms), hrest]
        rfl
      · rw [asmChar_of_ne hquote (Ne.symm hfeed.1), List.singleton_append,
          meaning?_plain (Ne.symm hback.1) (hascii c List.mem_cons_self), hrest]
        rfl

/-- A line without backslashes is one literal. -/
theorem literals?_line {line : List Char} (hfeed : '\n' ∉ line) (hback : '\\' ∉ line)
    (hascii : ∀ c ∈ line, c.val < 128) (rest : List Char) :
    literals? (asmLiterals line ++ rest)
      = (literals? rest).map (line.map (·.val.toUInt8) :: ·) := by
  rw [asmLiterals, List.cons_append, List.append_assoc, List.singleton_append]
  exact literals?_quoted (passes_line hfeed hback) (meaning?_line hfeed hback hascii) rest

/-- A body without backslashes is one literal for each of its lines, which means the line. -/
theorem literals?_asmLiterals {body : List Char} (hback : '\\' ∉ body)
    (hascii : ∀ c ∈ body, c.val < 128) :
    literals? (asmLiterals body)
      = some ((body.splitOn '\n').map fun line => line.map (·.val.toUInt8)) := by
  induction body using line_induction with
  | last line hline =>
      have hread := literals?_line hline hback hascii []
      rw [List.append_nil, literals?] at hread
      rw [hread, List.splitOn_eq_singleton hline]
      rfl
  | more line rest hline ih =>
      rw [List.mem_append, List.mem_cons, not_or, not_or] at hback
      have hread := ih hback.2.2 fun c hc =>
        hascii c (List.mem_append_right _ (List.mem_cons_of_mem _ hc))
      rw [asmLiterals_line, literals?_line hline hback.1
          fun c hc => hascii c (List.mem_append_left _ hc),
        literals?_space (by decide), hread, List.splitOn_append_cons_self_of_not_mem hline]
      rfl

/-- The lines run together are the body without its line feeds. -/
theorem flatten_splitOn (body : List Char) :
    (body.splitOn '\n').flatten = body.filter (· ≠ '\n') := by
  have hkept : ∀ line : List Char, '\n' ∉ line → line.filter (· ≠ '\n') = line := by
    intro line hline
    rw [List.filter_eq_self]
    intro c hc
    exact decide_eq_true fun heq => hline (heq ▸ hc)
  induction body using line_induction with
  | last line hline =>
      rw [List.splitOn_eq_singleton hline, List.flatten_singleton, hkept line hline]
  | more line rest hline ih =>
      rw [List.splitOn_append_cons_self_of_not_mem hline, List.flatten_cons, ih,
        List.filter_append, List.filter_cons_of_neg (by decide), hkept line hline]

/-- The literals mean the body when nothing of it has to be escaped but quotes, and only then. -/
theorem read_back_iff {body : List Char} (hascii : ∀ c ∈ body, c.val < 128) :
    (∃ parts, literals? (asmLiterals body) = some parts
      ∧ parts.flatten = body.map (·.val.toUInt8))
      ↔ '\n' ∉ body ∧ '\\' ∉ body := by
  constructor
  · rintro ⟨parts, hparts, hflat⟩
    have hback := backslash_not_mem hparts (by rw [hflat, List.length_map])
    refine ⟨?_, hback⟩
    -- without a backslash the literals are the lines, which are as long as the body
    rw [literals?_asmLiterals hback hascii] at hparts
    obtain rfl := Option.some.inj hparts
    have hlength := congrArg List.length hflat
    rw [← List.map_flatten, flatten_splitOn, List.length_map, List.length_map,
      List.length_filter_eq_length_iff] at hlength
    exact fun hfeed => absurd (hlength _ hfeed) (by decide)
  · rintro ⟨hfeed, hback⟩
    refine ⟨_, literals?_asmLiterals hback hascii, ?_⟩
    rw [List.splitOn_eq_singleton hfeed]
    exact List.append_nil _

/-- A line of a body is made of characters of the body, line feeds apart. -/
theorem mem_of_mem_splitOn {line body : List Char} (h : line ∈ body.splitOn '\n') {c : Char}
    (hc : c ∈ line) : c ∈ body ∧ c ≠ '\n' := by
  have hkept := List.mem_flatten_of_mem h hc
  rw [flatten_splitOn, List.mem_filter] at hkept
  exact ⟨hkept.1, of_decide_eq_true hkept.2⟩

/-- The bytes of a line of ASCII. -/
theorem encode_line {line : List Char} (hascii : ∀ c ∈ line, c.val < 128) :
    Utf8.encode (String.ofList line) = line.map (·.val.toUInt8) := by
  rw [Text.Utf8.encode_of_ascii, String.toList_ofList]
  rw [String.toList_ofList]
  exact hascii

/-- The bytes of the lines, as a compiler reads them. -/
theorem encode_splitOn {body : List Char} (hascii : ∀ c ∈ body, c.val < 128) :
    (body.splitOn '\n').map (fun line => Utf8.encode (String.ofList line))
      = (body.splitOn '\n').map fun line => line.map (·.val.toUInt8) := by
  rw [List.map_inj_left]
  exact fun line hline => encode_line fun c hc => hascii c (mem_of_mem_splitOn hline hc).1

/-- **What the assembler gets.** For a body of ASCII, the text between the parentheses is a sequence
of literals that mean the body, joined, exactly when the body has neither a line feed nor a
backslash.  Without a backslash it is one literal for each line of the body, and joined they mean
the body without its line feeds. -/
theorem sourceText_read_back (snippet : Snippet) (hasm : snippet.language = .asm) (body : String)
    (hascii : ∀ c ∈ body.toList, c.val < 128) :
    ∃ text : String,
      snippet.sourceText body
        = "void " ++ snippet.name ++ "()\x7b__asm__(" ++ text ++ ");\x7d"
      ∧ ((∃ parts, literals? text.toList = some parts ∧ parts.flatten = Utf8.encode body)
        ↔ '\n' ∉ body.toList ∧ '\\' ∉ body.toList)
      ∧ ('\\' ∉ body.toList → ∃ parts, literals? text.toList = some parts
        ∧ parts = (body.toList.splitOn '\n').map (fun line => Utf8.encode (String.ofList line))
        ∧ parts.flatten = Utf8.encode (String.ofList (body.toList.filter (· ≠ '\n')))) := by
  refine ⟨String.ofList (asmLiterals body.toList), sourceText_asm hasm body, ?_, ?_⟩
  · rw [String.toList_ofList, Text.Utf8.encode_of_ascii hascii]
    exact read_back_iff hascii
  · intro hback
    rw [String.toList_ofList]
    refine ⟨_, literals?_asmLiterals hback hascii, (encode_splitOn hascii).symm, ?_⟩
    rw [← List.map_flatten, flatten_splitOn,
      encode_line fun c hc => hascii c (List.mem_of_mem_filter hc)]

/-- A body with quotes is read back. -/
theorem sourceText_read_back_quotes :
    (⟨"f", .asm, by decide⟩ : Snippet).language = .asm
    ∧ (∀ c ∈ ".ascii \"hi\"".toList, c.val < 128)
    ∧ ∃ (text : String) (parts : List (List UInt8)),
        (⟨"f", .asm, by decide⟩ : Snippet).sourceText ".ascii \"hi\""
          = "void f()\x7b__asm__(" ++ text ++ ");\x7d"
        ∧ literals? text.toList = some parts
        ∧ parts.flatten = Utf8.encode ".ascii \"hi\"" := by
  have hascii : ∀ c ∈ ".ascii \"hi\"".toList, c.val < 128 := by
    intro c hc
    have hall : ".ascii \"hi\"".toList.all (fun c => c.val < 128) = true := by decide
    exact of_decide_eq_true (List.all_eq_true.mp hall c hc)
  obtain ⟨text, htext, hread, -⟩ :=
    sourceText_read_back ⟨"f", .asm, by decide⟩ rfl ".ascii \"hi\"" hascii
  obtain ⟨parts, hparts, hflat⟩ := hread.mpr (by decide)
  exact ⟨rfl, hascii, text, parts, htext, hparts, hflat⟩

/-- Two instructions on a line each reach the assembler as one, `mov $1, %eaxret`, and a string that
already has an escaped quote is no sequence of literals. -/
theorem sourceText_not_read_back :
    (⟨"f", .asm, by decide⟩ : Snippet).sourceText "mov $1, %eax\nret"
      = "void f()\x7b__asm__(\"mov $1, %eax\"\n\"ret\");\x7d"
    ∧ (literals? "\"mov $1, %eax\"\n\"ret\"".toList).map List.flatten
      = some (Utf8.encode "mov $1, %eaxret")
    ∧ Utf8.encode "mov $1, %eaxret" ≠ Utf8.encode "mov $1, %eax\nret"
    ∧ (⟨"f", .asm, by decide⟩ : Snippet).sourceText ".ascii \"\\\"\""
      = "void f()\x7b__asm__(\".ascii \\\"\\\\\"\\\"\");\x7d"
    ∧ literals? "\".ascii \\\"\\\\\"\\\"\"".toList = none := by
  exact ⟨by decide +kernel, by decide +kernel, by decide +kernel, by decide +kernel,
    by decide +kernel⟩

end ByteEmbed.Snippet
