import ByteEmbed.Proofs.Listing.Group

/-!
# ByteEmbed.Proofs.Listing.Refusal — what a refused line leaves behind.

Only a header closes the run in progress, so only a header can be refused, and it is refused exactly
when the gathered digits are `Unreadable`.  The digits may be anything here: a collector can be fed
lines that were never cut out of a text.  A refusal names what is in effect and leaves the collector
as it was (`after?_eq_error_iff`).  So a refused line leaves no trace in what comes after it: passing
over refusals is the same as never feeding the refused lines (`addLine_refused`).
-/

namespace ByteEmbed.Listing.Collector

/-! ## Closing a run that spells no bytes -/

/-- A run of digits that is no whole number of bytes: an odd number of UTF-8 bytes, or one among
them that is no hexadecimal digit. -/
def Unreadable (digits : String) : Prop :=
  digits ≠ ""
    ∧ (digits.utf8ByteSize % 2 = 1
      ∨ ∃ byte ∈ Text.Utf8.encode digits, Digit.isHex (Char.ofUInt8 byte) = false)

variable {σ : Type}

/-- What a collector says of its run when it cannot be closed. -/
def refusal (collector : Collector σ) : MalformedBytes :=
  { symbol := collector.name.real
    sectionName := collector.sectionName
    length := collector.pending.utf8ByteSize }

theorem closed?_eq_error_iff {collector : Collector σ} {e : MalformedBytes} :
    collector.closed? = .error e ↔ Unreadable collector.pending ∧ e = collector.refusal := by
  by_cases hpending : collector.pending = ""
  · -- nothing was gathered, and nothing is closed
    rw [closed?_of_empty hpending]
    constructor
    · intro h
      cases h
    · rintro ⟨⟨hne, -⟩, -⟩
      exact absurd hpending hne
  · have hunreadable : Unreadable collector.pending ↔ Hex.decode? collector.pending = none := by
      rw [Hex.decode?_eq_none_iff]
      exact and_iff_right hpending
    rw [hunreadable, closed?, if_neg (by simpa using hpending), Symbol.ofHex]
    cases Hex.decode? collector.pending with
    | some bytes => simp
    | none =>
        simp only [Except.error.injEq, true_and]
        exact eq_comm

/-! ## One line -/

variable [DigitSource σ]

/-- A line that is no header adds its digits, and is never refused. -/
theorem after?_of_not_header {line : Line} (h : line.isHeader = false) (collector : Collector σ) :
    collector.after? line = .ok (collector.gather (digitsOf [line])) := by
  cases line with
  | sectionHeader name => cases h
  | symbolHeader label => cases h
  | byteRun digits => rw [digitsOf_byteRun]; rfl
  | other =>
      have hsame : gather "" collector = collector := by simp [gather]
      rw [digitsOf_other, hsame]
      rfl

/-- Only a header is refused, and only for the digits in front of it. -/
theorem after?_eq_error_iff {collector : Collector σ} {line : Line} {e : MalformedBytes} :
    collector.after? line = .error e
      ↔ line.isHeader = true ∧ Unreadable collector.pending ∧ e = collector.refusal := by
  rw [← closed?_eq_error_iff]
  cases line with
  | sectionHeader name => cases h : collector.closed? <;> simp [after?, h, Except.map, Line.isHeader]
  | symbolHeader label => cases h : collector.closed? <;> simp [after?, h, Except.map, Line.isHeader]
  | byteRun digits => simp [after?, Line.isHeader]
  | other => simp [after?, Line.isHeader]

/-! ## Passing over refusals -/

/-- The collector after lines of which those that are refused are passed over. -/
def afterEach (collector : Collector σ) (lines : List Line) : Collector σ :=
  lines.foldl (fun collector line => ((addLine line).run collector).2) collector

/-- The lines that are not refused when they are fed one after the other. -/
def accepted (collector : Collector σ) : List Line → List Line
  | [] => []
  | line :: lines =>
    if ((addLine line).run collector).1.isOk then
      line :: accepted ((addLine line).run collector).2 lines
    else accepted ((addLine line).run collector).2 lines

theorem afterEach_cons_ok {collector collector' : Collector σ} {line : Line}
    (h : (addLine line).run collector = (.ok (), collector')) (lines : List Line) :
    collector.afterEach (line :: lines) = collector'.afterEach lines
      ∧ collector.accepted (line :: lines) = line :: collector'.accepted lines := by
  constructor
  · rw [afterEach, List.foldl_cons, h]
    rfl
  · rw [accepted, h]
    rfl

theorem afterEach_cons_error {collector : Collector σ} {line : Line} {e : MalformedBytes}
    (h : (addLine line).run collector = (.error e, collector)) (lines : List Line) :
    collector.afterEach (line :: lines) = collector.afterEach lines
      ∧ collector.accepted (line :: lines) = collector.accepted lines := by
  constructor
  · rw [afterEach, List.foldl_cons, h]
    rfl
  · rw [accepted, h]
    rfl

/-- The lines that are not refused are all accepted when they are fed alone, and they lead to the
same collector. -/
theorem runOn_accepted (collector : Collector σ) (lines : List Line) :
    runOn (addLines (collector.accepted lines)) collector
      = (.ok (), collector.afterEach lines) := by
  induction lines generalizing collector with
  | nil => rfl
  | cons line lines ih =>
      have hstep := runOn_addLine line collector
      cases hline : collector.after? line with
      | ok collector' =>
          rw [hline] at hstep
          obtain ⟨hafter, haccepted⟩ := afterEach_cons_ok hstep lines
          rw [hafter, haccepted, addLines, runOn_bind_ok hstep, ih]
      | error e =>
          -- the collector stays as it was, so it goes on as if the line were not there
          rw [hline] at hstep
          obtain ⟨hafter, haccepted⟩ := afterEach_cons_error hstep lines
          rw [hafter, haccepted, ih]

/-- **Refused lines leave no trace.** In any state, whatever was fed before, only a header is
refused, exactly when the gathered digits are unreadable; the refusal names the section and the
label in effect and the length of the digits, and the collector stays as it was.  So lines fed one
after the other, refusals passed over, lead where the accepted ones alone lead, and the collection
ends the same way. -/
theorem addLine_refused (collector : Collector σ) :
    (∀ line e left, (addLine line).run collector = (.error e, left)
      ↔ line.isHeader = true ∧ Unreadable collector.pending
        ∧ e = { symbol := collector.name.real
                sectionName := collector.sectionName
                length := collector.pending.utf8ByteSize }
        ∧ left = collector)
    ∧ ∀ lines,
      (addLines (collector.accepted lines)).run collector = (.ok (), collector.afterEach lines)
      ∧ (do addLines (collector.accepted lines); close).run collector
        = close.run (collector.afterEach lines) := by
  refine ⟨?_, ?_⟩
  · intro line e left
    have hstep : (addLine line).run collector = ofStep (collector.after? line) collector :=
      runOn_addLine line collector
    have herror : collector.after? line = .error e
        ↔ line.isHeader = true ∧ Unreadable collector.pending ∧ e = collector.refusal :=
      after?_eq_error_iff
    rw [hstep]
    cases hline : collector.after? line with
    | ok collector' =>
        rw [hline] at herror
        simp only [reduceCtorEq, false_iff, not_and] at herror
        constructor
        · intro h
          cases h
        · rintro ⟨hheader, hunreadable, he, -⟩
          exact absurd he (herror hheader hunreadable)
    | error e' =>
        rw [hline, Except.error.injEq] at herror
        rw [ofStep, Prod.mk.injEq, Except.error.injEq, herror, eq_comm (a := collector)]
        simp only [and_assoc]
        rfl
  · intro lines
    have hrun := runOn_accepted collector lines
    exact ⟨hrun, runOn_bind_ok hrun⟩

end ByteEmbed.Listing.Collector
