import ByteEmbed.Literal.Basic
import ByteEmbed.Symbol

/-!
# ByteEmbed.Declaration — symbols as sized C array declarations.

A declaration is a comment with the label, if the symbol was renamed; a line that places the array
in its section; the declarator, sized by the number of bytes; and one indented string literal to a
line.  The array has its size written out, so the literal's terminating zero is not stored.
-/

namespace ByteEmbed

/-- How declarations are laid out. -/
structure Layout where
  /-- The element type. -/
  ctype : String
  /-- How many spaces stand before a literal. -/
  tabSize : Nat
  /-- The width past which a literal is closed. -/
  maxWidth : Nat
deriving DecidableEq, Repr

namespace Layout

/-- The spaces before a literal. -/
def indent (layout : Layout) : String :=
  String.ofList (List.replicate layout.tabSize ' ')

/-- The comment that keeps the label of a renamed symbol. -/
def originComment (symbol : Symbol) : String :=
  if symbol.isRenamed then "// " ++ symbol.realName ++ " (original identifier)\n" else ""

/-- The line that places an array in a section. -/
def placement (symbol : Symbol) : String :=
  "__attribute__((section(\"" ++ symbol.sectionName ++ "#\")))\n"

/-- The declarator, up to the parenthesis before the literals. -/
def declarator (layout : Layout) (symbol : Symbol) : String :=
  layout.ctype ++ " " ++ symbol.name ++ "[" ++ toString symbol.bytes.length ++ "] = ("

/-- One line with a segment in quotes. -/
def literalLine (layout : Layout) (segment : String) : String :=
  "\n" ++ layout.indent ++ "\"" ++ segment ++ "\""

/-- The lines of a literal; one without segments is written as a pair of quotes. -/
def literalLines (layout : Layout) (literal : Literal) : String :=
  if literal.isEmpty then layout.literalLine ""
  else String.join (literal.segments.map layout.literalLine)

/-- The declaration of a symbol, with its bytes spelled by `literal`. -/
def declare (layout : Layout) (symbol : Symbol) (literal : Literal) : String :=
  originComment symbol ++ placement symbol ++ layout.declarator symbol
    ++ layout.literalLines literal ++ "\n);"

/-- The declaration of a symbol, with its own bytes. -/
def declareSymbol (layout : Layout) (symbol : Symbol) : String :=
  layout.declare symbol (Literal.ofBytes symbol.bytes layout.maxWidth)

/-- The declarations of symbols, each ended by a line feed, with an empty line between two. -/
def declareAll (layout : Layout) (symbols : List Symbol) : String :=
  "\n".intercalate (symbols.map fun symbol => layout.declareSymbol symbol ++ "\n")

end Layout

end ByteEmbed
