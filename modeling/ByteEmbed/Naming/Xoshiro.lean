/-!
# ByteEmbed.Naming.Xoshiro — sources of hexadecimal digits, and the seeded one.

Generated names take their digits from a `DigitSource`: anything that yields one digit after the
other.  The source a run uses is the xoshiro256++ generator.  Its four state words are filled from a
seed by eight steps of a permuted congruential generator, each giving half a word.  A digit is the
top four bits of a generated word; words with bit 59 set are passed over, so that the digits come
from the lower half of each sixteenth of the range.
-/

namespace ByteEmbed

/-- Anything that yields one hexadecimal digit after the other. -/
class DigitSource (σ : Type) where
  /-- The next digit, and the source after it. -/
  next : σ → Fin 16 × σ

/-- A word rotated to the left. -/
def rotateLeft64 (word : UInt64) (amount : UInt64) : UInt64 :=
  (word <<< amount) ||| (word >>> (64 - amount))

/-- A half word rotated to the right; an amount of zero leaves it as it is. -/
def rotateRight32 (word : UInt32) (amount : UInt32) : UInt32 :=
  (word >>> amount) ||| (word <<< ((32 - amount) % 32))

/-- The state of the xoshiro256++ generator. -/
structure Xoshiro where
  s0 : UInt64
  s1 : UInt64
  s2 : UInt64
  s3 : UInt64
deriving DecidableEq, Repr

namespace Xoshiro

/-! ## Seeding -/

/-- One step of the congruential generator that expands a seed. -/
def expand (state : UInt64) : UInt64 :=
  state * 6364136223846793005 + 11634580027462260723

/-- The half word that a state of the congruential generator gives. -/
def half (state : UInt64) : UInt32 :=
  rotateRight32 (((state >>> 18) ^^^ state) >>> 27).toUInt32 (state >>> 59).toUInt32

/-- A word from two steps, the low half first, and the state after them. -/
def word (state : UInt64) : UInt64 × UInt64 :=
  let low := expand state
  let high := expand low
  ((half low).toUInt64 ||| ((half high).toUInt64 <<< 32), high)

/-- The generator that a seed stands for. -/
def ofSeed (seed : UInt64) : Xoshiro :=
  let (s0, state) := word seed
  let (s1, state) := word state
  let (s2, state) := word state
  let (s3, _) := word state
  ⟨s0, s1, s2, s3⟩

/-! ## Generating -/

/-- The next word, and the state after it. -/
def next (x : Xoshiro) : UInt64 × Xoshiro :=
  let result := rotateLeft64 (x.s0 + x.s3) 23 + x.s0
  let shifted := x.s1 <<< 17
  let s2 := x.s2 ^^^ x.s0
  let s3 := x.s3 ^^^ x.s1
  let s1 := x.s1 ^^^ s2
  let s0 := x.s0 ^^^ s3
  (result, ⟨s0, s1, s2 ^^^ shifted, rotateLeft64 s3 45⟩)

/-- Whether a word is passed over when a digit is drawn. -/
def isRejected (word : UInt64) : Bool := (word >>> 59) % 2 == 1

/-- The digit that a word gives. -/
def digitOf (word : UInt64) : Fin 16 :=
  ⟨(word >>> 60).toNat % 16, Nat.mod_lt _ (by decide)⟩

/-- Draws words until one is kept, at most `draws` after the first. -/
def drawDigit (x : Xoshiro) : (draws : Nat) → Fin 16 × Xoshiro
  | 0 => (digitOf x.next.1, x.next.2)
  | draws + 1 =>
    if isRejected x.next.1 then drawDigit x.next.2 draws else (digitOf x.next.1, x.next.2)

/-- How many words may be passed over for one digit.  Half of all words are kept, so a run of this
length does not come up; the bound is there to make every draw end. -/
def mostRejections : Nat := 4096

instance : DigitSource Xoshiro where
  next x := x.drawDigit mostRejections

end Xoshiro

end ByteEmbed
