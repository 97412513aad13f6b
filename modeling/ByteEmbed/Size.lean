import ByteEmbed.Digit

/-!
# ByteEmbed.Size — numbers that fit a machine word of 64 bits.

Widths, indentations and seeds are given in texts of different kinds; whatever the kind, a number is
digits of some radix, at least one, and is refused from `bound` on.
-/

namespace ByteEmbed.Size

/-- Numbers must be below this bound. -/
def bound : Nat := UInt64.size

/-- The number that digits of a radix spell. -/
def ofDigits? (radix : Nat) (digits : List Char) : Option Nat := do
  guard (!digits.isEmpty)
  let values ← digits.mapM (Digit.value? radix)
  let number := values.foldl (fun n digit => n * radix + digit) 0
  guard (number < bound)
  return number

/-- A text without the plus sign at its start, if it has one. -/
def withoutPlus : List Char → List Char
  | '+' :: text => text
  | text => text

/-- The number of a word of decimal digits after an optional plus sign. -/
def ofWord? (word : String) : Option Nat :=
  ofDigits? 10 (withoutPlus word.toList)

end ByteEmbed.Size
