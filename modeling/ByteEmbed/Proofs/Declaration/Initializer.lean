import Mathlib.Data.List.Forall2
import ByteEmbed.Declaration
import ByteEmbed.Proofs.CLiteral.Spelling

/-!
# ByteEmbed.Proofs.Declaration.Initializer — what a C compiler reads from a declaration.

The initializer of a declaration is the text between the parentheses.  It is printed as lines with
one quoted body each, but a compiler does not read lines: a marker inside a body closes a literal
and opens the next.  `Initializes` states both views of one block, the lines that are printed and
the literals that are read, and `declareAll_initializes` says that they agree on the bytes of the
symbol for every symbol of an output.
-/

namespace ByteEmbed.Layout

open Literal (chunks chunkText)

/-! ## The two views of an initializer -/

/-- One line for each body: a line feed, the indentation, and the body in quotes. -/
def quotedLines (tabSize : Nat) (bodies : List String) : String :=
  String.join (bodies.map fun body =>
    "\n" ++ String.ofList (List.replicate tabSize ' ') ++ "\"" ++ body ++ "\"")

/-- `block` is a declaration of `symbol` with the number `size` in its brackets and a line for each
of `bodies` between its parentheses, which a C compiler reads as the literals `parts`. -/
structure Initializes (layout : Layout) (symbol : Symbol) (block size : String)
    (bodies : List String) (parts : List (List UInt8)) : Prop where
  text : block = originComment symbol ++ placement symbol
    ++ layout.ctype ++ " " ++ symbol.name ++ "[" ++ size ++ "] = ("
    ++ quotedLines layout.tabSize bodies ++ "\n);"
  lines : bodies ≠ []
  printable : ∀ body ∈ bodies, ∀ c ∈ body.toList, ' ' ≤ c ∧ c ≤ '~' ∧ c ≠ ';'
  read : CLiteral.literals? (quotedLines layout.tabSize bodies).toList = some parts
  bytes : parts.flatten = symbol.bytes
  count : size = toString parts.flatten.length

/-! ## Lines -/

/-- A line of white space and a quoted segment is read as the literals of the segment. -/
theorem literals?_quotedLines (tabSize : Nat) (segments : List (List UInt8)) :
    ∃ parts : List (List UInt8), parts.flatten = segments.flatten ∧
      CLiteral.literals? (quotedLines tabSize (segments.map chunkText)).toList = some parts := by
  induction segments with
  | nil =>
      refine ⟨[], rfl, ?_⟩
      rw [quotedLines, List.map_nil, List.map_nil, String.join_nil, String.toList_empty,
        CLiteral.literals?]
  | cons segment segments ih =>
      obtain ⟨later, hlater, hread⟩ := ih
      obtain ⟨parts, hparts, hsegment⟩ := CLiteral.literals?_chunkText segment
      refine ⟨parts ++ later, by simp [hparts, hlater], ?_⟩
      have htext : (quotedLines tabSize ((segment :: segments).map chunkText)).toList
          = '\n' :: (List.replicate tabSize ' ' ++ '"' :: ((chunkText segment).toList
            ++ '"' :: (quotedLines tabSize (segments.map chunkText)).toList)) := by
        simp [quotedLines]
      rw [htext, CLiteral.literals?_space (by decide), CLiteral.literals?_spaces, hsegment, hread]
      rfl

/-- The segments of which lines are printed: those of the bytes, or one without text. -/
def printedChunks (bytes : List UInt8) (maxWidth : Nat) : List (List UInt8) :=
  if (chunks maxWidth bytes).isEmpty then [[]] else chunks maxWidth bytes

theorem flatten_printedChunks (bytes : List UInt8) (maxWidth : Nat) :
    (printedChunks bytes maxWidth).flatten = bytes := by
  rw [printedChunks]
  split
  · rename_i hempty
    have hflatten := Literal.flatten_chunks maxWidth bytes
    rw [List.isEmpty_iff.mp hempty] at hflatten
    simpa using hflatten
  · exact Literal.flatten_chunks maxWidth bytes

theorem literalLines_eq (layout : Layout) (bytes : List UInt8) :
    layout.literalLines (Literal.ofBytes bytes layout.maxWidth)
      = quotedLines layout.tabSize ((printedChunks bytes layout.maxWidth).map chunkText) := by
  rw [literalLines, Literal.isEmpty, Literal.segments_ofBytes, List.isEmpty_map, printedChunks]
  split
  · simp [quotedLines, literalLine, indent, chunkText, Literal.textBefore]
  · rfl

/-! ## Declarations -/

theorem declareSymbol_initializes (layout : Layout) (symbol : Symbol) :
    ∃ size bodies parts,
      Initializes layout symbol (layout.declareSymbol symbol) size bodies parts := by
  obtain ⟨parts, hparts, hread⟩ :=
    literals?_quotedLines layout.tabSize (printedChunks symbol.bytes layout.maxWidth)
  rw [flatten_printedChunks] at hparts
  refine ⟨toString symbol.bytes.length, _, parts, ?_, ?_, ?_, hread, hparts, ?_⟩
  · rw [declareSymbol, declare, literalLines_eq, declarator]
    simp only [String.append_assoc]
  · rw [printedChunks]
    split
    · simp
    · rename_i hempty
      simpa using hempty
  · intro body hbody c hc
    obtain ⟨chunk, -, rfl⟩ := List.mem_map.mp hbody
    exact Literal.printable_textBefore hc
  · rw [hparts]

/-- **A compiler reads the symbol.** Every output is one block for each symbol, in order, and in
each block the literals that a C compiler reads are the bytes of the symbol, as many as the brackets
say. -/
theorem declareAll_initializes (layout : Layout) (symbols : List Symbol) :
    ∃ blocks : List String,
      layout.declareAll symbols = "\n".intercalate (blocks.map (· ++ "\n"))
      ∧ List.Forall₂ (fun symbol block =>
          ∃ size bodies parts, Initializes layout symbol block size bodies parts)
        symbols blocks := by
  refine ⟨symbols.map layout.declareSymbol, ?_, ?_⟩
  · rw [declareAll, List.map_map]
    rfl
  · rw [List.forall₂_map_right_iff, List.forall₂_same]
    exact fun symbol _ => declareSymbol_initializes layout symbol

end ByteEmbed.Layout
