import ByteEmbed.Digit
import ByteEmbed.Naming.Identifier
import ByteEmbed.Naming.Xoshiro

/-!
# ByteEmbed.Naming.Namer — labels turned into C identifiers.

A label that is an identifier keeps its spelling.  A label that starts with a dot stands for a
section: the dot is dropped, dots and hyphens become underscores, and the result is put behind
`section_` if it is an identifier.  Every other label gets a *generated* name, made of five random
digits and a running count.  The count alone keeps generated names apart; the digits only make it
unlikely that one meets a label of the listing.
-/

namespace ByteEmbed

/-- What generated names are made from: a source of digits, and how many names were handed out. -/
structure Namer (σ : Type) where
  source : σ
  count : UInt32
deriving DecidableEq, Repr

namespace Namer

variable {σ : Type} [DigitSource σ]

/-! ## Generated names -/

/-- What a generated name starts with. -/
def generatedStart : String := "unknown_"

/-- What the name of a section symbol starts with. -/
def sectionStart : String := "section_"

/-- How many random digits a generated name has. -/
def suffixLength : Nat := 5

/-- Draws `n` digits from a source, in order. -/
def drawDigits (source : σ) : Nat → List Char × σ
  | 0 => ([], source)
  | n + 1 =>
    let (digit, source) := DigitSource.next source
    let (digits, source) := drawDigits source n
    (Digit.lower digit.val :: digits, source)

/-- A new namer, which has handed out no name. -/
def ofSource (source : σ) : Namer σ := ⟨source, 0⟩

/-- The text of a generated name, from its random digits and the count. -/
def generatedText (suffix : List Char) (count : UInt32) : String :=
  generatedStart ++ String.ofList suffix ++ String.ofList (Nat.toDigits 16 count.toNat)

/-- Generates a name for the count as it stands. -/
def draw (namer : Namer σ) : String × Namer σ :=
  let (suffix, source) := drawDigits namer.source suffixLength
  (generatedText suffix namer.count, { namer with source })

/-- Advances the count, and generates a name for it. -/
def fresh (namer : Namer σ) : String × Namer σ :=
  draw { namer with count := namer.count + 1 }

/-- The name in effect before the first label.  It does not advance the count. -/
def placeholder (namer : Namer σ) : Name × Namer σ :=
  let (text, namer) := namer.draw
  (⟨text, text⟩, namer)

/-! ## Labels -/

/-- A section's name, its dot dropped, with dots and hyphens as underscores. -/
def normalized (name : List Char) : String :=
  String.ofList (name.map fun c => if c == '.' || c == '-' then '_' else c)

/-- The name a label has without any being generated. -/
def fixed? (label : String) : Option String :=
  match label.toList with
  | '.' :: name =>
    let word := normalized name
    if isIdentifier word then some (sectionStart ++ word) else none
  | _ => if isIdentifier label then some label else none

/-- The name of a label, and the namer after it. -/
def nameOf (namer : Namer σ) (label : String) : Name × Namer σ :=
  match fixed? label with
  | some display => (⟨display, label⟩, namer)
  | none =>
    let (display, namer) := namer.fresh
    (⟨display, label⟩, namer)

end Namer

end ByteEmbed
