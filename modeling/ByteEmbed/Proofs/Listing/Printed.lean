import ByteEmbed.Symbol
import ByteEmbed.Proofs.Hex
import ByteEmbed.Proofs.Listing.Line

/-!
# ByteEmbed.Proofs.Listing.Printed — how a listing is printed.

A listing prints entries one after the other: the header of a section that is not in effect yet, the
header of the symbol, then its bytes, cut over byte lines.  What is free in it is left free.  Digits
have either case, pairs stand any number of spaces apart, the bytes are cut anywhere, and what
follows them on a line is any text that does not look like one more digit (`IsTail`).  Lines of no
interest may stand anywhere (`WithNoise`).
-/

namespace ByteEmbed.Listing

/-! ## Entries -/

/-- A symbol that can be printed. -/
structure Entry where
  sectionName : String
  label : String
  bytes : List UInt8
  section_dot : sectionName.toList.head? = some '.'
  section_line : '\n' ∉ sectionName.toList
  label_line : '\n' ∉ label.toList
  bytes_ne_nil : bytes ≠ []

/-- `symbol` holds what `entry` holds, the label as its real name. -/
structure IsRecordOf (entry : Entry) (symbol : Symbol) : Prop where
  section_eq : symbol.sectionName = entry.sectionName
  real_eq : symbol.realName = entry.label
  bytes_eq : symbol.bytes = entry.bytes

/-! ## Printed lines -/

/-- The header of a section. -/
def sectionLine (name : String) : String := "Disassembly of section " ++ name ++ ":"

/-- The header of a symbol. -/
def symbolLine (label : String) : String := "<" ++ label ++ ">:"

/-- Bytes as pairs of digits, each of either case, with any number of spaces behind a pair. -/
inductive Pairs : List UInt8 → List Char → Prop
  | nil : Pairs [] []
  | cons {high low : Char} {byte : UInt8} {bytes : List UInt8} {text : List Char} (spaces : Nat)
      (hhigh : Digit.value? 16 high = some (byte.toNat / 16))
      (hlow : Digit.value? 16 low = some (byte.toNat % 16)) (hrest : Pairs bytes text) :
      Pairs (byte :: bytes) (high :: low :: (List.replicate spaces ' ' ++ text))

/-- What may follow the pairs on a line: nothing, or after any spaces no digit. -/
structure IsTail (tail : List Char) : Prop where
  line : '\n' ∉ tail
  no_digit : ∀ c, (tail.dropWhile (· == ' ')).head? = some c → Digit.isHex c = false

/-- A byte line of `bytes`. -/
inductive ByteLine : List UInt8 → String → Prop
  | intro {bytes : List UInt8} {text tail : List Char} (hne : bytes ≠ [])
      (hpairs : Pairs bytes text) (htail : IsTail tail) :
      ByteLine bytes (String.ofList ('\t' :: (text ++ tail)))

/-- Bytes, cut in any way over byte lines. -/
inductive ByteLines : List UInt8 → List String → Prop
  | nil : ByteLines [] []
  | cons {bytes bytes' : List UInt8} {line : String} {lines : List String}
      (hline : ByteLine bytes line) (hrest : ByteLines bytes' lines) :
      ByteLines (bytes ++ bytes') (line :: lines)

/-! ## Printed listings -/

/-- The lines that put a section into effect. -/
def sectionLines (current name : String) : List String :=
  if name = current then [] else [sectionLine name]

/-- `lines` print the entries, when the section `current` is in effect before them. -/
inductive Prints : String → List Entry → List String → Prop
  | nil {current : String} : Prints current [] []
  | cons {current : String} {entry : Entry} {entries : List Entry} {byteLines lines : List String}
      (hbytes : ByteLines entry.bytes byteLines) (hrest : Prints entry.sectionName entries lines) :
      Prints current (entry :: entries)
        (sectionLines current entry.sectionName ++ symbolLine entry.label :: (byteLines ++ lines))

/-- `raws` are `lines` with lines of no interest among them. -/
inductive WithNoise : List String → List String → Prop
  | nil : WithNoise [] []
  | line {line : String} {lines raws : List String} (hrest : WithNoise lines raws) :
      WithNoise (line :: lines) (line :: raws)
  | noise {raw : String} {lines raws : List String} (hother : Line.ofString raw = .other)
      (hfeed : '\n' ∉ raw.toList) (hrest : WithNoise lines raws) :
      WithNoise lines (raw :: raws)

/-! ## Printed lines, told by their shape -/

theorem toList_closed (words name : String) :
    (words ++ name ++ ":").toList = words.toList ++ name.toList ++ [':'] := by
  simp

theorem ofString_sectionLine {name : String} (hdot : name.toList.head? = some '.') :
    Line.ofString (sectionLine name) = .sectionHeader name := by
  have hsection : Line.sectionWord <+: "Disassembly of section ".toList := by decide
  have hwords : "Disassembly of section ".toList.all Line.isWordChar = true := by decide
  calc Line.ofString (sectionLine name)
    _ = Line.ofChars ("Disassembly of section ".toList ++ name.toList ++ [':']) :=
        congrArg Line.ofChars (toList_closed _ _)
    _ = .sectionHeader (String.ofList name.toList) :=
        Line.ofChars_words hsection (List.all_eq_true.mp hwords) hdot
    _ = .sectionHeader name := by rw [String.ofList_toList]

theorem toList_symbolLine (label : String) :
    (symbolLine label).toList = '<' :: (label.toList ++ ['>', ':']) := by
  rw [symbolLine, String.toList_append, String.toList_append]
  rfl

theorem ofString_symbolLine (label : String) :
    Line.ofString (symbolLine label) = .symbolHeader label := by
  rw [Line.ofString, toList_symbolLine, Line.ofChars_symbol, Line.labelOf_closed,
    String.ofList_toList]

/-- A tail adds no digit to a byte line. -/
theorem byteDigits_tail {tail : List Char} (h : IsTail tail) : Line.byteDigits tail = [] := by
  obtain ⟨-, hdigit⟩ := h
  induction tail with
  | nil => rfl
  | cons c tail ih =>
      by_cases hspace : c = ' '
      · rw [hspace, Line.byteDigits_space]
        apply ih
        intro d hd
        apply hdigit d
        rwa [hspace, List.dropWhile_cons_of_pos (by decide)]
      · refine Line.byteDigits_stop (hdigit c ?_) hspace tail
        rw [List.dropWhile_cons_of_neg (by simpa using hspace), List.head?_cons]

theorem byteDigits_spaces (spaces : Nat) (text : List Char) :
    Line.byteDigits (List.replicate spaces ' ' ++ text) = Line.byteDigits text := by
  induction spaces with
  | zero => rfl
  | succ spaces ih => rw [List.replicate_succ, List.cons_append, Line.byteDigits_space, ih]

/-- The digits in front of a tail are those of the pairs. -/
theorem spells_byteDigits {bytes : List UInt8} {text tail : List Char} (hpairs : Pairs bytes text)
    (htail : IsTail tail) : Hex.Spells (Line.byteDigits (text ++ tail)) bytes := by
  induction hpairs with
  | nil =>
      rw [List.nil_append, byteDigits_tail htail]
      exact .nil
  | cons spaces hhigh hlow hrest ih =>
      rw [List.cons_append, List.cons_append, List.append_assoc,
        Line.byteDigits_digit (Digit.isDigit_of_value?_eq_some hhigh),
        Line.byteDigits_digit (Digit.isDigit_of_value?_eq_some hlow), byteDigits_spaces]
      exact .cons hhigh hlow ih

theorem ofString_byteLine {bytes : List UInt8} {line : String} (h : ByteLine bytes line) :
    ∃ digits, Line.ofString line = .byteRun digits ∧ Hex.Spells digits.toList bytes := by
  obtain @⟨text, tail, hne, hpairs, htail⟩ := h
  have hspells := spells_byteDigits hpairs htail
  have hdigits : Line.byteDigits (text ++ tail) ≠ [] := by
    intro hnil
    rw [hnil] at hspells
    cases hspells
    exact hne rfl
  refine ⟨String.ofList (Line.byteDigits (text ++ tail)), ?_, ?_⟩
  · rw [Line.ofString, String.toList_ofList, Line.ofChars_tab, if_neg hdigits]
  · rw [String.toList_ofList]
    exact hspells

end ByteEmbed.Listing
