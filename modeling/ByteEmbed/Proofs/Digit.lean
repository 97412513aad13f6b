import Mathlib.Algebra.Group.Nat.Defs
import ByteEmbed.Digit

/-!
# ByteEmbed.Proofs.Digit — what runs of digits take and what they are worth.

`number` is the value of a list of digits with no word around it.  The saturating value of a run is
that number as long as it fits a word, and the greatest word from there on (`toNat_valueOf`), so no
number of leading zeros changes it and no digit after an overflow brings it back.  What a run takes
is said by `takeRun_append`: a list of digits, when no further digit follows it.  These are the
longest digits at the start of a text (`exists_takeRun_eq`).
-/

namespace ByteEmbed.Digit

/-! ## One digit -/

theorem value?_lower {value : Nat} (h : value < 16) : value? 16 (lower value) = some value := by
  have hall : ∀ v < 16, value? 16 (lower v) = some v := by decide
  exact hall value h

theorem lt_of_value?_eq_some {radix value : Nat} {c : Char} (h : value? radix c = some value) :
    value < radix := by
  have hlt := (Option.filter_eq_some_iff.mp h).2
  simpa using hlt

theorem isDigit_of_value?_eq_some {radix value : Nat} {c : Char}
    (h : value? radix c = some value) : isDigit radix c = true := by
  simp [isDigit, h]

theorem value?_eq_none_iff {radix : Nat} {c : Char} :
    value? radix c = none ↔ isDigit radix c = false := by
  rw [isDigit, Option.isSome_eq_false_iff, Option.isNone_iff_eq_none]

/-- A digit of a radix is a digit of every greater one. -/
theorem isDigit_mono {radix radix' : Nat} (hle : radix ≤ radix') {c : Char}
    (h : isDigit radix c = true) : isDigit radix' c = true := by
  obtain ⟨value, hvalue⟩ := Option.isSome_iff_exists.mp h
  obtain ⟨hrank, hlt⟩ := Option.filter_eq_some_iff.mp hvalue
  have hlt' : value < radix' := by
    have hlt : value < radix := by simpa using hlt
    omega
  exact isDigit_of_value?_eq_some (Option.filter_eq_some_iff.mpr ⟨hrank, by simpa using hlt'⟩)

/-- Every digit is a character of ASCII. -/
theorem ascii_of_isDigit {radix : Nat} {c : Char} (h : isDigit radix c = true) : c.val < 128 := by
  obtain ⟨value, hvalue⟩ := Option.isSome_iff_exists.mp h
  have hrank := (Option.filter_eq_some_iff.mp hvalue).1
  unfold rank? at hrank
  split at hrank
  · rename_i hrange
    exact UInt32.lt_of_le_of_lt hrange.2 (by decide : '9'.val < 128)
  · split at hrank
    · rename_i hrange
      exact UInt32.lt_of_le_of_lt hrange.2 (by decide : 'z'.val < 128)
    · split at hrank
      · rename_i hrange
        exact UInt32.lt_of_le_of_lt hrange.2 (by decide : 'Z'.val < 128)
      · cases hrank

theorem isHex_lower {value : Nat} (h : value < 16) : isHex (lower value) = true :=
  isDigit_of_value?_eq_some (value?_lower h)

/-- What holds of each of the 128 characters of ASCII, as they can be tried one by one. -/
theorem forall_ascii {p : Char → Prop} (h : ∀ n < 128, p (Char.ofNat n)) {c : Char}
    (hc : c.val < 128) : p c := by
  have hchar := h c.toNat (UInt32.lt_iff_toNat_lt.mp hc)
  rwa [Char.ofNat_toNat] at hchar

/-- A digit has the same value in either case. -/
theorem value?_toLower (radix : Nat) (c : Char) : value? radix c.toLower = value? radix c := by
  have hall : ∀ n < 128, rank? (Char.ofNat n).toLower = rank? (Char.ofNat n) := by decide +kernel
  have hrank : rank? c.toLower = rank? c := by
    by_cases hc : c.val < 128
    · exact forall_ascii (p := fun c => rank? c.toLower = rank? c) hall hc
    · -- lower case differs for capital letters of ASCII only
      have hsame : c.toLower = c := by
        unfold Char.toLower
        rw [dif_neg]
        rintro ⟨-, hle⟩
        exact hc (UInt32.lt_of_le_of_lt hle (by decide))
      rw [hsame]
  rw [value?, value?, hrank]

/-- A hexadecimal digit in lower case is the digit that is written for its value. -/
theorem lower_of_value?_eq_some {value : Nat} {c : Char} (h : value? 16 c = some value) :
    lower value = c.toLower := by
  have hall : ∀ n < 128, ∀ v ∈ value? 16 (Char.ofNat n), lower v = (Char.ofNat n).toLower := by
    decide +kernel
  have hascii : c.val < 128 := ascii_of_isDigit (isDigit_of_value?_eq_some h)
  exact forall_ascii (p := fun c => ∀ v ∈ value? 16 c, lower v = c.toLower) hall hascii value h

theorem value?_eq_some_iff_lower {value : Nat} {c : Char} (hvalue : value < 16) :
    value? 16 c = some value ↔ c.toLower = lower value := by
  constructor
  · intro h
    exact (lower_of_value?_eq_some h).symm
  · intro h
    rw [← value?_toLower, h, value?_lower hvalue]

/-! ## The number that digits spell -/

/-- The value of a list of digits, most significant first. -/
def number (radix : Nat) (digits : List Char) : Nat :=
  digits.foldl (fun n c => n * radix + (value? radix c).getD 0) 0

theorem foldl_number (radix n : Nat) (digits : List Char) :
    digits.foldl (fun n c => n * radix + (value? radix c).getD 0) n
      = n * radix ^ digits.length + number radix digits := by
  induction digits generalizing n with
  | nil => simp [number]
  | cons c digits ih =>
      rw [number, List.foldl_cons, List.foldl_cons, ih, ih (0 * radix + _), List.length_cons,
        Nat.pow_succ, Nat.zero_mul, Nat.zero_add, Nat.add_mul, Nat.add_assoc, Nat.mul_assoc,
        Nat.mul_comm radix]

/-- The first digit counts for as many places as follow it. -/
theorem number_cons (radix : Nat) (c : Char) (digits : List Char) :
    number radix (c :: digits)
      = (value? radix c).getD 0 * radix ^ digits.length + number radix digits := by
  rw [number, List.foldl_cons, foldl_number, Nat.zero_mul, Nat.zero_add]

theorem number_lt {radix : Nat} {digits : List Char}
    (hdigits : ∀ c ∈ digits, isDigit radix c = true) :
    number radix digits < radix ^ digits.length := by
  induction digits with
  | nil => simp [number]
  | cons c digits ih =>
      obtain ⟨value, hvalue⟩ := Option.isSome_iff_exists.mp (hdigits c (by simp))
      have hlt := lt_of_value?_eq_some hvalue
      have hrest := ih fun d hd => hdigits d (by simp [hd])
      have hmul : (value + 1) * radix ^ digits.length ≤ radix * radix ^ digits.length :=
        Nat.mul_le_mul_right _ hlt
      rw [Nat.add_mul, Nat.one_mul] at hmul
      rw [number_cons, hvalue, Option.getD_some, List.length_cons, Nat.pow_succ,
        Nat.mul_comm _ radix]
      omega

theorem toNat_saturate (n : Nat) : (saturate n).toNat = min n greatest := by
  have hle : min n greatest ≤ greatest := Nat.min_le_right _ _
  have hlt : min n greatest < 2 ^ 32 := Nat.lt_of_le_of_lt hle (by decide)
  simpa [saturate] using hlt

/-- One more digit keeps a saturated word saturated. -/
theorem toNat_shiftIn {radix : Nat} (hradix : 0 < radix) {value : UInt32} {n : Nat}
    (h : value.toNat = min n greatest) (digit : Nat) :
    (shiftIn radix value digit).toNat = min (n * radix + digit) greatest := by
  rw [shiftIn, toNat_saturate, toNat_saturate, h]
  rcases Nat.le_total n greatest with hle | hle
  · rw [Nat.min_eq_left hle]
    omega
  · rw [Nat.min_eq_right hle]
    have hmul : greatest ≤ greatest * radix := Nat.le_mul_of_pos_right _ hradix
    have hmul' : greatest * radix ≤ n * radix := Nat.mul_le_mul_right _ hle
    omega

/-- The word of a list of digits is their number, or the greatest word if that does not fit. -/
theorem toNat_valueOf {radix : Nat} (hradix : 0 < radix) (digits : List Char) :
    (valueOf radix digits).toNat = min (number radix digits) greatest := by
  -- the induction is on the digits, with any word and number that agree before them
  suffices h : ∀ (value : UInt32) (n : Nat), value.toNat = min n greatest →
      (digits.foldl (fun v c => shiftIn radix v ((value? radix c).getD 0)) value).toNat
        = min (digits.foldl (fun n c => n * radix + (value? radix c).getD 0) n) greatest from
    h 0 0 (by simp)
  induction digits with
  | nil => intro value n h; exact h
  | cons c digits ih =>
      intro value n h
      simp only [List.foldl_cons]
      exact ih _ _ (toNat_shiftIn hradix h _)

/-! ## What a run takes -/

/-- No digit of `radix` stands at the start of `text`. -/
def NoneAhead (radix : Nat) (text : List Char) : Prop :=
  ∀ c ∈ text.head?, isDigit radix c = false

/-- Where no digit of a radix is ahead, none of a smaller one is. -/
theorem NoneAhead.mono {radix radix' : Nat} (hle : radix ≤ radix') {text : List Char}
    (h : NoneAhead radix' text) : NoneAhead radix text := by
  intro c hc
  have hgreater := h c hc
  cases hdigit : isDigit radix c with
  | false => rfl
  | true =>
      rw [isDigit_mono hle hdigit] at hgreater
      cases hgreater

/-- What starts with no digit may stand behind a text without bringing one ahead. -/
theorem noneAhead_append_iff {radix : Nat} {text next : List Char} (hnext : NoneAhead radix next) :
    NoneAhead radix (text ++ next) ↔ NoneAhead radix text := by
  cases text with
  | nil => exact iff_of_true hnext (by simp [NoneAhead])
  | cons c text => exact Iff.rfl

theorem takeWhile_isDigit_append {radix : Nat} {digits rest : List Char}
    (hdigits : ∀ c ∈ digits, isDigit radix c = true) (hrest : NoneAhead radix rest) :
    (digits ++ rest).takeWhile (isDigit radix) = digits := by
  rw [List.takeWhile_append_of_pos hdigits]
  cases rest with
  | nil => simp
  | cons c rest => simp [hrest c rfl]

/-- A run takes the digits at the start of a text up to its limit: all of them, if none is ahead. -/
theorem takeRun_append {radix : Nat} (limit : Nat) {digits rest : List Char}
    (hdigits : ∀ c ∈ digits, isDigit radix c = true) (hlimit : digits.length ≤ limit)
    (hend : digits.length = limit ∨ NoneAhead radix rest) :
    takeRun radix limit (digits ++ rest)
      = { value := valueOf radix digits, count := digits.length, rest } := by
  have htaken : ((digits ++ rest).take limit).takeWhile (isDigit radix) = digits := by
    rw [List.take_append, List.take_of_length_le hlimit]
    refine takeWhile_isDigit_append hdigits ?_
    rcases hend with hfull | hrest
    · intro c hc
      simp [hfull] at hc
    · intro c hc
      cases rest with
      | nil => simp at hc
      | cons d rest =>
          cases hleft : limit - digits.length with
          | zero => simp [hleft] at hc
          | succ n =>
              have hd : d = c := by simpa [hleft] using hc
              exact hrest c (by simp [hd])
  simp [takeRun, htaken]

/-- Every text starts with a run: digits up to the limit, and no digit behind them unless the limit
is reached. -/
theorem exists_run (radix limit : Nat) (text : List Char) :
    ∃ digits rest, text = digits ++ rest ∧ (∀ c ∈ digits, isDigit radix c = true)
      ∧ digits.length ≤ limit ∧ (digits.length = limit ∨ NoneAhead radix rest) := by
  induction limit generalizing text with
  | zero => exact ⟨[], text, rfl, by simp, Nat.le_refl _, Or.inl rfl⟩
  | succ limit ih =>
      cases text with
      | nil => exact ⟨[], [], rfl, by simp, Nat.zero_le _, Or.inr (by simp [NoneAhead])⟩
      | cons c text =>
          cases hc : isDigit radix c with
          | false =>
              exact ⟨[], c :: text, rfl, by simp, Nat.zero_le _, Or.inr (by simp [NoneAhead, hc])⟩
          | true =>
              obtain ⟨digits, rest, rfl, hdigits, hlength, hend⟩ := ih text
              refine ⟨c :: digits, rest, rfl, ?_, Nat.succ_le_succ hlength, ?_⟩
              · intro d hd
                rcases List.mem_cons.mp hd with rfl | hd
                · exact hc
                · exact hdigits d hd
              · rcases hend with hfull | hnone
                · exact Or.inl (congrArg Nat.succ hfull)
                · exact Or.inr hnone

/-- Digits at the start of a text, as many as there are up to a limit. -/
structure IsLongest (radix limit : Nat) (text digits : List Char) : Prop where
  starts : digits <+: text
  digit : ∀ c ∈ digits, isDigit radix c = true
  atMost : digits.length ≤ limit
  longest : ∀ other, other <+: text → (∀ c ∈ other, isDigit radix c = true) →
    other.length ≤ limit → other.length ≤ digits.length

/-- Digits are as many as there are when the limit is reached or no digit follows. -/
theorem isLongest_append {radix limit : Nat} {digits rest : List Char}
    (hdigits : ∀ c ∈ digits, isDigit radix c = true) (hlimit : digits.length ≤ limit)
    (hend : digits.length = limit ∨ NoneAhead radix rest) :
    IsLongest radix limit (digits ++ rest) digits where
  starts := List.prefix_append digits rest
  digit := hdigits
  atMost := hlimit
  longest := by
    intro other hother hdigit hatMost
    rcases hend with hfull | hnone
    · rw [hfull]
      exact hatMost
    · -- a digit more would be the character that follows
      rcases List.prefix_or_prefix_of_prefix hother (List.prefix_append digits rest) with h | h
      · exact h.length_le
      · obtain ⟨more, rfl⟩ := h
        cases more with
        | nil => simp
        | cons c more =>
            obtain ⟨after, hafter⟩ := (List.prefix_append_right_inj digits).mp hother
            have hahead := hnone c (by simp [← hafter])
            rw [hdigit c (by simp)] at hahead
            cases hahead

/-- A run takes the longest digits of a text that its limit allows, counts them, and is worth their
number, or the greatest word if the number is greater than that. -/
theorem exists_takeRun_eq {radix : Nat} (hradix : 0 < radix) (limit : Nat) (text : List Char) :
    ∃ digits, IsLongest radix limit text digits
      ∧ digits ++ (takeRun radix limit text).rest = text
      ∧ (takeRun radix limit text).count = digits.length
      ∧ (takeRun radix limit text).value.toNat = min (number radix digits) greatest := by
  obtain ⟨digits, rest, rfl, hdigits, hlimit, hend⟩ := exists_run radix limit text
  rw [takeRun_append limit hdigits hlimit hend]
  exact ⟨digits, isLongest_append hdigits hlimit hend, rfl, rfl, toNat_valueOf hradix digits⟩

/-- Every text starts with all the digits that stand at its start. -/
theorem exists_span (radix : Nat) (text : List Char) :
    ∃ digits rest, text = digits ++ rest ∧ (∀ c ∈ digits, isDigit radix c = true)
      ∧ NoneAhead radix rest := by
  obtain ⟨digits, rest, rfl, hdigits, -, hend⟩ := exists_run radix text.length text
  refine ⟨digits, rest, rfl, hdigits, ?_⟩
  rcases hend with hfull | hnone
  · -- the digits are as many as the text has characters, so nothing is left of it
    have hrest : rest = [] := by simpa using hfull
    simp [hrest, NoneAhead]
  · exact hnone

end ByteEmbed.Digit
