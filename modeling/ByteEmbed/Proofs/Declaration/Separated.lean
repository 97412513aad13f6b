import Mathlib.Data.List.Induction
import ByteEmbed.Proofs.Declaration.Head
import ByteEmbed.Proofs.Text.Blocks

/-!
# ByteEmbed.Proofs.Declaration.Separated — declarations can be told apart.

Between two declarations stands an empty line, and nothing else in the output looks like one: a
declaration is its head lines, a line for each literal and the closing line, and none of them is
empty, whatever the bytes, the width and the indentation are.  So an output is cut at its empty
lines into the declarations it was written from (`declareAll_blocks`).  The empty line belongs to
neither side: it is written only where something stands already, which is what writing one
declaration after another does (`declareAll_eq_foldl`), and what makes outputs of parts of a list
fit together.
-/

namespace ByteEmbed.Layout

open Text (Solid blocks)

/-! ## The lines of a declaration -/

/-- A line with a body in quotes. -/
def quotedLine (tabSize : Nat) (body : String) : String :=
  String.ofList (List.replicate tabSize ' ') ++ "\"" ++ body ++ "\""

/-- The lines of a declaration with the bodies of its literals. -/
def declarationLines (layout : Layout) (symbol : Symbol) (bodies : List String) : List String :=
  headLines layout symbol ++ bodies.map (quotedLine layout.tabSize) ++ [");"]

/-- Lines that are joined by line feeds, with one more at the end, are lines that are each ended. -/
theorem intercalate_feed {lines : List String} (hne : lines ≠ []) :
    "\n".intercalate lines ++ "\n" = String.join (lines.map (· ++ "\n")) := by
  induction lines with
  | nil => exact absurd rfl hne
  | cons line lines ih =>
      cases lines with
      | nil => simp
      | cons next lines =>
          rw [String.intercalate_cons_cons, String.append_assoc, ih (by simp)]
          simp

/-- The line feed in front of each quoted line is that behind the line before it. -/
theorem quotedLines_feed (tabSize : Nat) (bodies : List String) :
    quotedLines tabSize bodies ++ "\n"
      = "\n" ++ String.join ((bodies.map (quotedLine tabSize)).map (· ++ "\n")) := by
  induction bodies with
  | nil => simp [quotedLines]
  | cons body bodies ih =>
      rw [quotedLines_cons, String.append_assoc, ih, List.map_cons, List.map_cons, String.join_cons,
        quotedLine]
      simp only [String.append_assoc]

/-- A declaration is its lines. -/
theorem Initializes.text_eq {layout : Layout} {symbol : Symbol} {block size : String}
    {bodies : List String} {parts : List (List UInt8)}
    (h : Initializes layout symbol block size bodies parts) :
    block = "\n".intercalate (declarationLines layout symbol bodies) := by
  have hsize : size = toString symbol.bytes.length := by rw [h.count, h.bytes]
  have hclose : "\n);" ++ "\n" = "\n" ++ String.join ([");"].map (· ++ "\n")) := by decide
  have hended : block ++ "\n"
      = "\n".intercalate (declarationLines layout symbol bodies) ++ "\n" := by
    rw [intercalate_feed (by simp [declarationLines]), declarationLines, List.map_append,
      List.map_append, String.join_append, String.join_append, join_headLines, h.text, hsize]
    generalize originComment symbol ++ placement symbol ++ layout.ctype ++ " " ++ symbol.name
      ++ "[" ++ toString symbol.bytes.length ++ "] = (" = head
    calc head ++ quotedLines layout.tabSize bodies ++ "\n);" ++ "\n"
      _ = head ++ (quotedLines layout.tabSize bodies ++ "\n")
          ++ String.join ([");"].map (· ++ "\n")) := by
        simp only [String.append_assoc, hclose]
      _ = head ++ "\n"
          ++ String.join ((bodies.map (quotedLine layout.tabSize)).map (· ++ "\n"))
          ++ String.join ([");"].map (· ++ "\n")) := by
        rw [quotedLines_feed, ← String.append_assoc]
  exact (String.append_left_inj "\n").mp hended

theorem ne_empty_of_mem_headLines {layout : Layout} {symbol : Symbol} {line : String}
    (h : line ∈ headLines layout symbol) : line ≠ "" := by
  rw [headLines, List.mem_append, List.mem_pair] at h
  rcases h with h | rfl | rfl
  · split at h
    · rw [List.mem_singleton.mp h]
      simp
    · cases h
  · simp
  · simp

/-- The declaration of a symbol that brings no line feed has no empty line. -/
theorem solid_declareSymbol {layout : Layout} {symbol : Symbol}
    (hhead : ∀ line ∈ headLines layout symbol, '\n' ∉ line.toList) :
    Solid (layout.declareSymbol symbol).toList := by
  obtain ⟨size, bodies, parts, h⟩ := declareSymbol_initializes layout symbol
  rw [h.text_eq]
  refine Text.solid_intercalate (by simp [declarationLines]) ?_
  intro line hline
  rw [declarationLines, List.mem_append, List.mem_append, List.mem_singleton] at hline
  rcases hline with (hline | hline) | rfl
  · exact ⟨ne_empty_of_mem_headLines hline, hhead line hline⟩
  · obtain ⟨body, hbody, rfl⟩ := List.mem_map.mp hline
    have hfeed : '\n' ∉ body.toList := fun hc =>
      absurd (h.printable body hbody _ hc).1 (by decide)
    constructor
    · simp [quotedLine]
    · simpa [quotedLine] using hfeed
  · decide

/-! ## Outputs -/

/-- What is written once another declaration stands behind what was written so far: an empty line
comes between the two. -/
def writeNext (layout : Layout) (written : String) (symbol : Symbol) : String :=
  (if written.isEmpty then written else written ++ "\n") ++ layout.declareSymbol symbol ++ "\n"

/-- The output of two lists of symbols is that of each, with a line feed between. -/
theorem declareAll_append (layout : Layout) {first second : List Symbol} (hfirst : first ≠ [])
    (hsecond : second ≠ []) :
    layout.declareAll (first ++ second)
      = layout.declareAll first ++ "\n" ++ layout.declareAll second := by
  rw [declareAll, List.map_append, String.intercalate_append_of_ne_nil (by simpa) (by simpa)]
  rfl

theorem declareAll_singleton (layout : Layout) (symbol : Symbol) :
    layout.declareAll [symbol] = layout.declareSymbol symbol ++ "\n" := by
  rw [declareAll, List.map_singleton, String.intercalate_singleton]

/-- An output is its declarations, two line feeds between each two, and a line feed. -/
theorem declareAll_eq {layout : Layout} {symbols : List Symbol} (hne : symbols ≠ []) :
    layout.declareAll symbols
      = "\n\n".intercalate (symbols.map layout.declareSymbol) ++ "\n" := by
  induction symbols with
  | nil => exact absurd rfl hne
  | cons symbol symbols ih =>
      cases symbols with
      | nil => rw [declareAll_singleton, List.map_singleton, String.intercalate_singleton]
      | cons next symbols =>
          have hsplit : symbol :: next :: symbols = [symbol] ++ (next :: symbols) := rfl
          have hfeeds : "\n\n" = "\n" ++ "\n" := by decide
          rw [hsplit, declareAll_append layout (by simp) (by simp), declareAll_singleton,
            ih (by simp), List.map_append, List.map_singleton,
            String.intercalate_append_of_ne_nil (by simp) (by simp), String.intercalate_singleton,
            hfeeds]
          simp only [String.append_assoc]

theorem declareAll_eq_empty_iff {layout : Layout} {symbols : List Symbol} :
    layout.declareAll symbols = "" ↔ symbols = [] := by
  constructor
  · intro hempty
    by_contra hne
    rw [declareAll_eq hne, String.append_eq_empty_iff] at hempty
    exact absurd hempty.2 (by decide)
  · rintro rfl
    rfl

/-- Declarations that are written one after the other, with an empty line in front of each but the
first, are the output. -/
theorem declareAll_eq_foldl (layout : Layout) (symbols : List Symbol) :
    layout.declareAll symbols = symbols.foldl layout.writeNext "" := by
  induction symbols using List.reverseRecOn with
  | nil => rfl
  | append_singleton symbols symbol ih =>
      rw [List.foldl_concat, ← ih, writeNext]
      by_cases hne : symbols = []
      · subst hne
        rw [List.nil_append, declareAll_singleton]
        rfl
      · have hwritten : (layout.declareAll symbols).isEmpty = false :=
          String.isEmpty_eq_false_iff.mpr (declareAll_eq_empty_iff.not.mpr hne)
        rw [declareAll_append layout hne (by simp), declareAll_singleton, hwritten,
          if_neg (by simp), ← String.append_assoc]

theorem getLast?_declareSymbol (layout : Layout) (symbol : Symbol) :
    (layout.declareSymbol symbol).toList.getLast? = some ';' := by
  rw [declareSymbol, declare, String.toList_append, List.getLast?_append]
  rfl

/-- What is in front of the last line feed of an output ends with its last declaration. -/
theorem getLast?_of_declareAll {layout : Layout} {symbols : List Symbol} {body : String}
    (hne : symbols ≠ []) (h : layout.declareAll symbols = body ++ "\n") :
    body.toList.getLast? = some ';' := by
  rcases List.eq_nil_or_concat symbols with rfl | ⟨earlier, symbol, rfl⟩
  · exact absurd rfl hne
  · rw [List.concat_eq_append, declareAll_eq_foldl, List.foldl_concat, writeNext] at h
    rw [← (String.append_left_inj "\n").mp h, String.toList_append, List.getLast?_append,
      getLast?_declareSymbol, Option.some_or]

/-- Neither the section nor a name of the symbol brings a line feed. -/
structure OnOneLine (symbol : Symbol) : Prop where
  section_line : '\n' ∉ symbol.sectionName.toList
  name_line : '\n' ∉ symbol.name.toList
  real_line : '\n' ∉ symbol.realName.toList

/-- **Declarations can be told apart.** The output for no symbols is empty.  Any other ends in one
line feed, and what is in front of that is cut at its empty lines into the declarations of the
symbols with their bytes, in order, when no line feed comes with the element type, a section or a
name.  It is what writing the declarations one after the other gives, and outputs of two parts of a
list have a line feed between them. -/
theorem declareAll_blocks (layout : Layout) (hctype : '\n' ∉ layout.ctype.toList)
    (symbols : List Symbol) (hsymbols : ∀ symbol ∈ symbols, OnOneLine symbol) :
    (layout.declareAll symbols = "" ↔ symbols = [])
    ∧ (symbols ≠ [] → ∃ body : String,
        layout.declareAll symbols = body ++ "\n"
        ∧ body.toList.getLast? ≠ some '\n'
        ∧ blocks body = symbols.map fun symbol =>
            layout.declare symbol (Literal.ofBytes symbol.bytes layout.maxWidth))
    ∧ layout.declareAll symbols = symbols.foldl layout.writeNext ""
    ∧ ∀ first second, symbols = first ++ second → first ≠ [] → second ≠ [] →
        layout.declareAll symbols
          = layout.declareAll first ++ "\n" ++ layout.declareAll second := by
  refine ⟨declareAll_eq_empty_iff, fun hne => ?_, declareAll_eq_foldl layout symbols, ?_⟩
  · refine ⟨_, declareAll_eq hne, ?_, ?_⟩
    · rw [getLast?_of_declareAll hne (declareAll_eq hne)]
      decide
    · refine Text.blocks_intercalate (by simpa using hne) ?_
      intro block hblock
      obtain ⟨symbol, hmem, rfl⟩ := List.mem_map.mp hblock
      obtain ⟨hsection, hname, hreal⟩ := hsymbols symbol hmem
      exact solid_declareSymbol (not_mem_headLines hctype hsection hreal hname)
  · rintro first second rfl hfirst hsecond
    exact declareAll_append layout hfirst hsecond

/-- A symbol that is renamed, with bytes that are cut, and one without bytes. -/
theorem declareAll_blocks_two_symbols :
    '\n' ∉ "char".toList
    ∧ (∀ symbol ∈ [⟨".a", "u", "a.b", [0x90, 0x0a]⟩, ⟨".text", "e", "e", []⟩], OnOneLine symbol)
    ∧ ∃ body : String,
        (Layout.mk "char" 1 0).declareAll
            [⟨".a", "u", "a.b", [0x90, 0x0a]⟩, ⟨".text", "e", "e", []⟩]
          = body ++ "\n"
        ∧ blocks body
          = [ "// a.b (original identifier)\n__attribute__((section(\".a#\")))\n"
                ++ "char u[2] = (\n \"\\x90\"\n \"\\n\"\n);",
              "__attribute__((section(\".text#\")))\nchar e[0] = (\n \"\"\n);" ] := by
  have hctype : '\n' ∉ "char".toList := by decide
  have hsymbols : ∀ symbol ∈ [⟨".a", "u", "a.b", [0x90, 0x0a]⟩, ⟨".text", "e", "e", []⟩],
      OnOneLine symbol := by
    intro symbol hsymbol
    rcases List.mem_pair.mp hsymbol with rfl | rfl
    · exact ⟨by decide, by decide, by decide⟩
    · exact ⟨by decide, by decide, by decide⟩
  obtain ⟨-, hbody, -⟩ := declareAll_blocks ⟨"char", 1, 0⟩ hctype _ hsymbols
  obtain ⟨body, htext, -, hblocks⟩ := hbody (by simp)
  exact ⟨hctype, hsymbols, body, htext, hblocks.trans (by decide +kernel)⟩

end ByteEmbed.Layout
