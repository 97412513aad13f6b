import ByteEmbed.Listing.Line
import ByteEmbed.Naming.Namer
import ByteEmbed.Symbol
import ByteEmbed.Text.Lines

/-!
# ByteEmbed.Listing.Collector — the symbols of a listing, collected line by line.

Byte digits are gathered into a run until the next header or the end.  There the run is *closed*:
it becomes one symbol, under the section and the name that were in effect while it was read.  A
header closes the run before it changes anything, so a header at which that fails leaves the
collector as it was: section, name, namer, gathered digits and symbols.  Collecting takes place in
a monad that keeps its state through an error, which makes that a fact to be stated and not a
convention.
-/

namespace ByteEmbed.Listing

/-- What has been collected so far, and what is in effect. -/
structure Collector (σ : Type) where
  namer : Namer σ
  /-- The section in effect. -/
  sectionName : String
  /-- The name in effect. -/
  name : Name
  /-- The byte digits read since the last header. -/
  pending : String
  symbols : Array Symbol
deriving DecidableEq, Repr

/-- A computation on a collector that may refuse byte data, and keeps the collector if it does. -/
abbrev Collecting (σ : Type) : Type → Type :=
  ExceptT MalformedBytes (StateM (Collector σ))

namespace Collector

variable {σ : Type} [DigitSource σ]

/-- The section in effect until a listing names one. -/
def defaultSection : String := ".text"

/-- A collector that has read nothing.  Its name in effect is generated at once. -/
def ofSource (source : σ) : Collector σ :=
  let (name, namer) := (Namer.ofSource source).placeholder
  { namer, sectionName := defaultSection, name, pending := "", symbols := #[] }

/-- Turns the gathered digits, if there are any, into a symbol. -/
def closeRun : Collecting σ Unit := do
  let collector ← get
  unless collector.pending.isEmpty do
    match Symbol.ofHex collector.sectionName collector.name collector.pending with
    | .error malformed => throw malformed
    | .ok symbol =>
      set { collector with pending := "", symbols := collector.symbols.push symbol }

/-- Puts a section into effect. -/
def enterSection (name : String) (collector : Collector σ) : Collector σ :=
  { collector with sectionName := name }

/-- Puts the name of a label into effect. -/
def enterSymbol (label : String) (collector : Collector σ) : Collector σ :=
  let (name, namer) := collector.namer.nameOf label
  { collector with name, namer }

/-- Gathers byte digits. -/
def gather (digits : String) (collector : Collector σ) : Collector σ :=
  { collector with pending := collector.pending ++ digits }

/-- Takes in one line. -/
def addLine : Line → Collecting σ Unit
  | .sectionHeader name => do
    closeRun
    modify (enterSection name)
  | .symbolHeader label => do
    closeRun
    modify (enterSymbol label)
  | .byteRun digits => modify (gather digits)
  | .other => pure ()

/-- Takes in lines up to the first that is refused. -/
def addLines : List Line → Collecting σ Unit
  | [] => pure ()
  | line :: following => do
    addLine line
    addLines following

/-- Ends the collection: what is still gathered becomes the last symbol. -/
def close : Collecting σ (List Symbol) := do
  closeRun
  return (← get).symbols.toList

/-- Takes in the lines of a text, and ends the collection. -/
def collect (text : String) : Collecting σ (List Symbol) := do
  addLines ((Text.lines text).map Line.ofString)
  close

end Collector

/-- The symbols of a listing, with generated names drawn from `source`. -/
def symbolsOf {σ : Type} [DigitSource σ] (source : σ) (text : String) :
    Except MalformedBytes (List Symbol) :=
  ((Collector.collect text).run (Collector.ofSource source)).1

end ByteEmbed.Listing
