import ByteEmbed.Proofs.CLiteral.Verbatim
import ByteEmbed.Proofs.Declaration.Initializer
import ByteEmbed.Proofs.Listing.Origin
import ByteEmbed.Proofs.Text.Lines
import ByteEmbed.Proofs.Text.Utf8
import ByteEmbed.Settings

/-!
# ByteEmbed.Proofs.Declaration.Head — what a listing can put before the literals of a declaration.

A declaration takes a label and a section from the listing as they are, the label into a comment and
the section between two quotes.  `Heads` says what stands before the literals, line by line, and
when the quotes hold.  No listing can put a line feed into a line, and whatever it says the
declarator is an identifier.  The quotes are another matter: a section without quotes and
backslashes is read back as it is, and any other is not, because nothing escapes it
(`declareAll_heads`, `section_argument_broken`).

Only a line feed ends a line here, as it does in a listing.  Some compilers, gcc among them, take a
carriage return without a line feed for a line end as well.  A label or a section may bring one
along, and for them the comment or the literal then ends where it stands; of that nothing is said.
-/

namespace ByteEmbed.Layout

open Listing (symbolsOf groups IsSymbolOf isSymbolOf_of_symbolsOf)
open Listing.Collector (linesOf)
open Text (Utf8.encode Utf8.ascii_of_all)

/-! ## The lines before the literals -/

/-- The argument that names the section of a symbol. -/
def sectionArgument (symbol : Symbol) : String := "\"" ++ symbol.sectionName ++ "#\""

/-- The lines before the literals: the comment of a renamed symbol, the attribute, and the
declarator with the parenthesis that it ends in. -/
def headLines (layout : Layout) (symbol : Symbol) : List String :=
  (if symbol.isRenamed then ["// " ++ symbol.realName ++ " (original identifier)"] else [])
    ++ [ "__attribute__((section(" ++ sectionArgument symbol ++ ")))",
         layout.ctype ++ " " ++ symbol.name ++ "[" ++ toString symbol.bytes.length ++ "] = (" ]

/-- `block` begins with the head lines of `symbol`, each of which is one line.  The declarator is an
identifier, and the argument of the attribute is one literal that means the section and a number
sign exactly when the section holds neither a quote nor a backslash. -/
structure Heads (layout : Layout) (symbol : Symbol) (block : String) : Prop where
  text : ∃ rest, block = String.join ((headLines layout symbol).map (· ++ "\n")) ++ rest
  single : ∀ line ∈ headLines layout symbol, '\n' ∉ line.toList
  declarator : isIdentifier symbol.name = true
  argument : CLiteral.literals? (sectionArgument symbol).toList
      = some [Utf8.encode (symbol.sectionName ++ "#")]
    ↔ '"' ∉ symbol.sectionName.toList ∧ '\\' ∉ symbol.sectionName.toList

/-! ## Printed -/

theorem quotedLines_cons (tabSize : Nat) (body : String) (bodies : List String) :
    quotedLines tabSize (body :: bodies)
      = "\n" ++ String.ofList (List.replicate tabSize ' ') ++ "\"" ++ body ++ "\""
        ++ quotedLines tabSize bodies := by
  rw [quotedLines, List.map_cons, String.join_cons, quotedLines]

theorem placement_eq (symbol : Symbol) :
    placement symbol = "__attribute__((section(" ++ sectionArgument symbol ++ ")))\n" := by
  rw [← String.toList_inj]
  unfold placement sectionArgument
  simp

theorem join_headLines (layout : Layout) (symbol : Symbol) :
    String.join ((headLines layout symbol).map (· ++ "\n"))
      = originComment symbol ++ placement symbol ++ layout.ctype ++ " " ++ symbol.name ++ "["
        ++ toString symbol.bytes.length ++ "] = (" ++ "\n" := by
  rw [← String.toList_inj, placement_eq, headLines, originComment]
  split
  · simp
  · simp

/-- A declaration begins with its head lines, as the first literal line begins with a line feed. -/
theorem declareSymbol_headLines (layout : Layout) (symbol : Symbol) :
    ∃ rest, layout.declareSymbol symbol
      = String.join ((headLines layout symbol).map (· ++ "\n")) ++ rest := by
  obtain ⟨size, bodies, parts, hinit⟩ := declareSymbol_initializes layout symbol
  obtain ⟨body, bodies, rfl⟩ := List.exists_cons_of_ne_nil hinit.lines
  have hsize : size = toString symbol.bytes.length := by rw [hinit.count, hinit.bytes]
  refine ⟨String.ofList (List.replicate layout.tabSize ' ') ++ "\"" ++ body ++ "\""
    ++ quotedLines layout.tabSize bodies ++ "\n);", ?_⟩
  rw [hinit.text, join_headLines, quotedLines_cons, hsize]
  simp only [String.append_assoc]

/-- Each head line is one line when no line feed comes with the element type, the section or the
names. -/
theorem not_mem_headLines {layout : Layout} {symbol : Symbol} (hctype : '\n' ∉ layout.ctype.toList)
    (hsection : '\n' ∉ symbol.sectionName.toList) (hreal : '\n' ∉ symbol.realName.toList)
    (hname : '\n' ∉ symbol.name.toList) :
    ∀ line ∈ headLines layout symbol, '\n' ∉ line.toList := by
  have hdigits : '\n' ∉ (toString symbol.bytes.length).toList := by
    rw [Nat.toString_eq_repr, Nat.toList_repr]
    exact fun hc => absurd (Nat.isDigit_of_mem_toDigits (by decide) (by decide) hc) (by decide)
  have hcomment : '\n' ∉ ("// " ++ symbol.realName ++ " (original identifier)").toList := by
    simpa using hreal
  have hattribute :
      '\n' ∉ ("__attribute__((section(" ++ sectionArgument symbol ++ ")))").toList := by
    simpa [sectionArgument] using hsection
  have hdeclarator : '\n' ∉ (layout.ctype ++ " " ++ symbol.name ++ "["
      ++ toString symbol.bytes.length ++ "] = (").toList := by
    simp only [String.toList_append, List.mem_append, not_or]
    exact ⟨⟨⟨⟨⟨hctype, by decide⟩, hname⟩, by decide⟩, hdigits⟩, by decide⟩
  intro line hline
  rw [headLines, List.mem_append, List.mem_pair] at hline
  rcases hline with hline | rfl | rfl
  · split at hline
    · rw [List.mem_singleton.mp hline]
      exact hcomment
    · cases hline
  · exact hattribute
  · exact hdeclarator

/-! ## Read -/

/-- The argument of the attribute is the section and a number sign exactly when the section can
stand between quotes as it is. -/
theorem literals?_sectionArgument_iff {symbol : Symbol}
    (hfeed : '\n' ∉ symbol.sectionName.toList)
    (hascii : ∀ c ∈ symbol.sectionName.toList, c.val < 128) :
    CLiteral.literals? (sectionArgument symbol).toList
        = some [Utf8.encode (symbol.sectionName ++ "#")]
      ↔ '"' ∉ symbol.sectionName.toList ∧ '\\' ∉ symbol.sectionName.toList := by
  have hquoted : (sectionArgument symbol).toList
      = '"' :: ((symbol.sectionName ++ "#").toList ++ ['"']) := by
    simp [sectionArgument]
  have hchars : (symbol.sectionName ++ "#").toList = symbol.sectionName.toList ++ ['#'] := by
    simp
  have hline : '\n' ∉ (symbol.sectionName ++ "#").toList := by
    rw [hchars]
    simpa using hfeed
  have hall : ∀ c ∈ (symbol.sectionName ++ "#").toList, c.val < 128 := by
    rw [hchars]
    intro c hc
    rcases List.mem_append.mp hc with hc | hc
    · exact hascii c hc
    · rw [List.mem_singleton.mp hc]
      decide
  rw [hquoted, Text.Utf8.encode_of_ascii hall, CLiteral.literals?_verbatim_iff hline hall, hchars]
  simp

/-! ## Listings -/

section

variable {σ : Type} [DigitSource σ] {source : σ} {text : String}

/-- The default section is ASCII, on one line. -/
theorem ascii_defaultSection :
    ∀ c ∈ Listing.Collector.defaultSection.toList, c ≠ '\n' ∧ c.val < 128 := by
  intro c hc
  have hchars : c ∈ ['.', 't', 'e', 'x', 't'] := hc
  simp only [List.mem_cons, List.not_mem_nil, or_false] at hchars
  rcases hchars with rfl | rfl | rfl | rfl | rfl <;> decide

/-- The declaration of a symbol of an ASCII listing. -/
theorem heads_of_isSymbolOf {layout : Layout} (hctype : '\n' ∉ layout.ctype.toList)
    (hascii : ∀ c ∈ text.toList, c.val < 128) {group : Listing.Group} {symbol : Symbol}
    (hgroup : group ∈ groups (linesOf text)) (h : IsSymbolOf source group symbol) :
    Heads layout symbol (layout.declareSymbol symbol) := by
  have hfeeds : ∀ line ∈ Text.lines text, ∀ c ∈ line.toList, c ≠ '\n' := fun line hline _ hc heq =>
    (Text.mem_lines hline).1 (heq ▸ hc)
  have hchars : ∀ line ∈ Text.lines text, ∀ c ∈ line.toList, c.val < 128 := fun line hline c hc =>
    hascii c ((Text.mem_lines hline).2 c hc)
  have hsection : '\n' ∉ symbol.sectionName.toList := fun hc =>
    h.forall_mem_sectionName hfeeds hgroup (fun c hc => (ascii_defaultSection c hc).1) _ hc rfl
  have hreal : '\n' ∉ symbol.realName.toList := by
    intro hc
    refine h.forall_mem_realName hfeeds hgroup (fun c htail => ?_) _ hc rfl
    rintro rfl
    cases htail
  have hidentifier := h.name_usable.1
  have hname : '\n' ∉ symbol.name.toList := fun hc =>
    absurd (isIdentifierTail_of_mem hidentifier hc) (by decide)
  exact
    { text := declareSymbol_headLines layout symbol
      single := not_mem_headLines hctype hsection hreal hname
      declarator := hidentifier
      argument := literals?_sectionArgument_iff hsection
        (h.forall_mem_sectionName hchars hgroup fun c hc => (ascii_defaultSection c hc).2) }

/-- **What a listing can put before the literals.** In the output for an ASCII listing, every
declaration begins with a comment on one line, if the symbol is renamed, then the attribute and the
declarator on a line each.  The declarator is an identifier.  The argument of the attribute is one
literal that means the section and a number sign exactly when the section holds neither a quote nor
a backslash. -/
theorem declareAll_heads (layout : Layout) (hctype : '\n' ∉ layout.ctype.toList)
    (hascii : ∀ c ∈ text.toList, c.val < 128) {records : List Symbol}
    (h : symbolsOf source text = .ok records) :
    ∃ blocks : List String,
      layout.declareAll records = "\n".intercalate (blocks.map (· ++ "\n"))
      ∧ List.Forall₂ (Heads layout) records blocks := by
  refine ⟨records.map layout.declareSymbol, ?_, ?_⟩
  · rw [declareAll, List.map_map]
    rfl
  · rw [List.forall₂_map_right_iff, List.forall₂_same]
    intro symbol hsymbol
    obtain ⟨group, hgroup, hof⟩ := Listing.exists_group_of_mem h hsymbol
    exact heads_of_isSymbolOf hctype hascii hgroup hof

end

/-- A listing with a symbol that is renamed and one behind a section. -/
theorem declareAll_heads_two_symbols :
    '\n' ∉ "const char".toList
    ∧ (∀ c ∈ "<a.b>:\n\t90\nDisassembly of section .data:\n<f>:\n\tc3\n".toList, c.val < 128)
    ∧ symbolsOf (Xoshiro.ofSeed 0)
        "<a.b>:\n\t90\nDisassembly of section .data:\n<f>:\n\tc3\n"
      = .ok [ { sectionName := ".text", name := "unknown_976da1", realName := "a.b"
                bytes := [0x90] },
              { sectionName := ".data", name := "f", realName := "f", bytes := [0xc3] } ]
    ∧ ∃ first second : String,
        Heads { ctype := "const char", tabSize := 4, maxWidth := 65 }
          { sectionName := ".text", name := "unknown_976da1", realName := "a.b", bytes := [0x90] }
          first
        ∧ Heads { ctype := "const char", tabSize := 4, maxWidth := 65 }
          { sectionName := ".data", name := "f", realName := "f", bytes := [0xc3] } second := by
  have hctype : '\n' ∉ "const char".toList := by decide
  have hascii : ∀ c ∈ "<a.b>:\n\t90\nDisassembly of section .data:\n<f>:\n\tc3\n".toList,
      c.val < 128 := Utf8.ascii_of_all (by decide +kernel)
  have hsymbols : symbolsOf (Xoshiro.ofSeed 0)
      "<a.b>:\n\t90\nDisassembly of section .data:\n<f>:\n\tc3\n"
    = .ok [ { sectionName := ".text", name := "unknown_976da1", realName := "a.b"
              bytes := [0x90] },
            { sectionName := ".data", name := "f", realName := "f", bytes := [0xc3] } ] := by
    decide +kernel
  obtain ⟨blocks, -, hblocks⟩ := declareAll_heads
    { ctype := "const char", tabSize := 4, maxWidth := 65 } hctype hascii hsymbols
  obtain ⟨first, _, hfirst, hrest, -⟩ := List.forall₂_cons_left_iff.mp hblocks
  obtain ⟨second, _, hsecond, -, -⟩ := List.forall₂_cons_left_iff.mp hrest
  exact ⟨hctype, hascii, hsymbols, first, second, hfirst, hsecond⟩

/-- A section with a quote closes the literal: the listing is accepted, and what stands between the
parentheses of the attribute is no C literal. -/
theorem section_argument_broken :
    (∀ c ∈ "Disassembly of section .a\"b:\n<f>:\n\t90\n".toList, c.val < 128)
    ∧ '\n' ∉ Settings.default.layout.ctype.toList
    ∧ symbolsOf (Xoshiro.ofSeed 0) "Disassembly of section .a\"b:\n<f>:\n\t90\n"
      = .ok [ { sectionName := ".a\"b", name := "f", realName := "f", bytes := [0x90] } ]
    ∧ Settings.default.layout.declareAll
        [ { sectionName := ".a\"b", name := "f", realName := "f", bytes := [0x90] } ]
      = "__attribute__((section(\".a\"b#\")))\nconst char f[1] = (\n    \"\\x90\"\n);\n"
    ∧ CLiteral.literals? "\".a\"b#\"".toList = none := by
  exact ⟨Utf8.ascii_of_all (by decide +kernel), by decide, by decide +kernel, by decide +kernel,
    by decide +kernel⟩

end ByteEmbed.Layout
