import ByteEmbed.Symbol

/-!
# ByteEmbed.SectionTotal — how many symbols and bytes each section has.

Sections are listed in the order in which they first appear, each once.
-/

namespace ByteEmbed

/-- The number of symbols of a section and the number of bytes they have together. -/
structure SectionTotal where
  sectionName : String
  symbols : Nat
  bytes : Nat
deriving DecidableEq, Repr

namespace SectionTotal

/-- Counts one more symbol: at its section's entry, or in a new entry at the end. -/
def add (symbol : Symbol) : List SectionTotal → List SectionTotal
  | [] => [⟨symbol.sectionName, 1, symbol.bytes.length⟩]
  | total :: totals =>
    if total.sectionName = symbol.sectionName then
      { total with
        symbols := total.symbols + 1
        bytes := total.bytes + symbol.bytes.length } :: totals
    else total :: add symbol totals

/-- The totals of a list of symbols. -/
def ofSymbols (symbols : List Symbol) : List SectionTotal :=
  symbols.foldl (fun totals symbol => add symbol totals) []

end SectionTotal

end ByteEmbed
