/-!
# ByteEmbed.Digit — digits of a radix, and the numbers that digits spell.

A digit is an ASCII character: `0`..`9`, then the letters of either case.  `value?` reads one,
`lower` writes one, and `Run` is the longest prefix of digits of a text, cut at a limit.  The value
of a run is kept in a 32-bit word that *saturates*: a run may be arbitrarily long (any number of
leading zeros included), and a value that no longer fits stays at the greatest word, so it can never
come back as a small number.
-/

namespace ByteEmbed.Digit

/-! ## One digit -/

/-- The value of an alphanumeric ASCII character as a digit, before any radix is imposed. -/
def rank? (c : Char) : Option Nat :=
  if '0' ≤ c ∧ c ≤ '9' then some (c.toNat - '0'.toNat)
  else if 'a' ≤ c ∧ c ≤ 'z' then some (c.toNat - 'a'.toNat + 10)
  else if 'A' ≤ c ∧ c ≤ 'Z' then some (c.toNat - 'A'.toNat + 10)
  else none

/-- The value of `c` as a digit of `radix`, in either case. -/
def value? (radix : Nat) (c : Char) : Option Nat :=
  (rank? c).filter (· < radix)

/-- Whether `c` is a digit of `radix`. -/
def isDigit (radix : Nat) (c : Char) : Bool :=
  (value? radix c).isSome

/-- Whether `c` is a hexadecimal digit, in either case. -/
def isHex (c : Char) : Bool := isDigit 16 c

/-- The hexadecimal digit of a value below sixteen, in lower case. -/
def lower (value : Nat) : Char := Nat.digitChar value

/-! ## Runs of digits -/

/-- The greatest value a run can report. -/
def greatest : Nat := UInt32.size - 1

/-- A natural number as a word; a number that is too large becomes the greatest word. -/
def saturate (n : Nat) : UInt32 := UInt32.ofNat (min n greatest)

/-- The word after one more digit, each of its two operations saturating. -/
def shiftIn (radix : Nat) (value : UInt32) (digit : Nat) : UInt32 :=
  saturate ((saturate (value.toNat * radix)).toNat + digit)

/-- The saturated value of a list of digits, most significant first. -/
def valueOf (radix : Nat) (digits : List Char) : UInt32 :=
  digits.foldl (fun value c => shiftIn radix value ((value? radix c).getD 0)) 0

/-- A run of digits at the start of a text: its saturated value, how many digits it has, and the
text after it. -/
structure Run where
  value : UInt32
  count : Nat
  rest : List Char
deriving DecidableEq, Repr

/-- The longest run of digits of `radix` at the start of `text` that has at most `limit` digits. -/
def takeRun (radix limit : Nat) (text : List Char) : Run :=
  let digits := (text.take limit).takeWhile (isDigit radix)
  { value := valueOf radix digits, count := digits.length, rest := text.drop digits.length }

/-- What a run leaves is no longer than the text it was taken from. -/
theorem length_takeRun_rest (radix limit : Nat) (text : List Char) :
    (takeRun radix limit text).rest.length ≤ text.length := by
  simp [takeRun]

end ByteEmbed.Digit
