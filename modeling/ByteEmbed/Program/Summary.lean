import ByteEmbed.Program.Console
import ByteEmbed.SectionTotal

/-!
# ByteEmbed.Program.Summary — the table of sections that a verbose run shows.

Under a header, one row to a section with its number of symbols and of bytes; under the table, one
line to each renamed symbol.
-/

namespace ByteEmbed.Summary

/-- A row: a section cell, which is padded already, and two counts. -/
def row (sectionCell symbols bytes : String) : String :=
  sectionCell ++ "| " ++ Console.right 8 symbols ++ " | " ++ Console.right 8 bytes

/-- The rule above and below the rows. -/
def rule : String :=
  Console.fill '-' 24 "" ++ "+" ++ Console.fill '-' 10 "" ++ "+" ++ Console.fill '-' 10 ""

/-- The header of the table. -/
def header : String :=
  Console.bold (row (Console.left 24 "section") "symbols" "bytes")

/-- The row of a section. -/
def totalRow (total : SectionTotal) : String :=
  row (Console.cyan (Console.left 24 total.sectionName)) (toString total.symbols)
    (toString total.bytes)

/-- The line of a renamed symbol. -/
def renamedLine (symbol : Symbol) : String :=
  "  " ++ Console.yellow symbol.name ++ " <- " ++ symbol.realName

/-- The lines of a summary. -/
def lines (symbols : List Symbol) : List String :=
  [rule, header, rule] ++ (SectionTotal.ofSymbols symbols).map totalRow ++ [rule]
    ++ (symbols.filter Symbol.isRenamed).map renamedLine

/-- The text of a summary. -/
def text (symbols : List Symbol) : String :=
  String.join ((lines symbols).map (· ++ "\n"))

end ByteEmbed.Summary
