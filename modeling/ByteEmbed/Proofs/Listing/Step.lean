import ByteEmbed.Listing.Collector
import ByteEmbed.Proofs.Hex
import ByteEmbed.Proofs.Run

/-!
# ByteEmbed.Proofs.Listing.Step — what one line does to a collector.

The collector runs in a monad that keeps its state through an error.  Here its moves are told as
functions: `closed?` is what closing the run in progress gives, `after?` what one line gives, each
either a new collector or the refusal of malformed byte data.  A computation that is refused leaves
the collector as it was, so a whole listing is the lines taken one after the other up to the first
refusal (`symbolsOf_eq`).
-/

namespace ByteEmbed.Listing.Collector

variable {σ : Type}

/-! ## Steps as computations -/

/-- A step of a collector as a computation: it leaves the collector as it was if it is refused. -/
def ofStep (step : Except MalformedBytes (Collector σ)) (collector : Collector σ) :
    Except MalformedBytes Unit × Collector σ :=
  match step with
  | .ok collector' => (.ok (), collector')
  | .error e => (.error e, collector)

/-! ## Closing a run -/

/-- The collector after the run in progress has been closed. -/
def closed? (collector : Collector σ) : Except MalformedBytes (Collector σ) :=
  if collector.pending.isEmpty then .ok collector
  else
    match Symbol.ofHex collector.sectionName collector.name collector.pending with
    | .ok symbol => .ok { collector with pending := "", symbols := collector.symbols.push symbol }
    | .error e => .error e

theorem runOn_closeRun (collector : Collector σ) :
    runOn closeRun collector = ofStep collector.closed? collector := by
  have hget : runOn (get : Collecting σ (Collector σ)) collector = (.ok collector, collector) := rfl
  rw [closeRun, runOn_bind_ok hget, closed?]
  split
  · rfl
  · cases Symbol.ofHex collector.sectionName collector.name collector.pending <;> rfl

theorem runOn_close (collector : Collector σ) :
    runOn close collector
      = match collector.closed? with
        | .ok collector' => (.ok collector'.symbols.toList, collector')
        | .error e => (.error e, collector) := by
  rw [close, runOn_bind, runOn_closeRun]
  cases collector.closed? <;> rfl

/-- The symbols that closing the run gives, when its digits spell `bytes`. -/
def emitted (collector : Collector σ) (bytes : List UInt8) : List Symbol :=
  if bytes.isEmpty then []
  else
    [{ sectionName := collector.sectionName
       name := collector.name.display
       realName := collector.name.real
       bytes }]

theorem emitted_of_ne_nil {bytes : List UInt8} (h : bytes ≠ []) (collector : Collector σ) :
    emitted collector bytes
      = [{ sectionName := collector.sectionName
           name := collector.name.display
           realName := collector.name.real
           bytes }] := by
  unfold emitted
  rw [if_neg]
  simpa using h

/-- The collector after its run, whose digits spell `bytes`, has been closed. -/
def closing (collector : Collector σ) (bytes : List UInt8) : Collector σ :=
  { collector with
      pending := ""
      symbols := collector.symbols ++ (emitted collector bytes).toArray }

theorem toList_symbols_closing (collector : Collector σ) (bytes : List UInt8) :
    (closing collector bytes).symbols.toList
      = collector.symbols.toList ++ emitted collector bytes := by
  simp [closing]

theorem closed?_of_empty {collector : Collector σ} (h : collector.pending = "") :
    collector.closed? = .ok collector := by
  rw [closed?, h]
  rfl

/-- A run whose digits spell bytes is closed without a refusal. -/
theorem closed?_of_spells {collector : Collector σ} {bytes : List UInt8}
    (h : Hex.Spells collector.pending.toList bytes) :
    collector.closed? = .ok (closing collector bytes) := by
  by_cases hpending : collector.pending = ""
  · -- no digits spell no bytes, and nothing is pushed
    rw [closed?_of_empty hpending]
    rw [hpending] at h
    cases h
    have hsame : collector = { collector with pending := "" } := by
      rw [← hpending]
    simpa [closing, emitted] using hsame
  · have hdecode : Hex.decode? collector.pending = some bytes :=
      Hex.decodeChars?_eq_some_iff.mpr h
    rw [closed?, if_neg (by simpa using hpending), Symbol.ofHex, hdecode, closing,
      emitted_of_ne_nil (h.ne_nil hpending)]
    simp

/-! ## Taking in lines -/

variable [DigitSource σ]

/-- The collector after one line. -/
def after? (collector : Collector σ) : Line → Except MalformedBytes (Collector σ)
  | .sectionHeader name => collector.closed?.map (enterSection name)
  | .symbolHeader label => collector.closed?.map (enterSymbol label)
  | .byteRun digits => .ok (gather digits collector)
  | .other => .ok collector

theorem runOn_addLine (line : Line) (collector : Collector σ) :
    runOn (addLine line) collector = ofStep (collector.after? line) collector := by
  cases line with
  | sectionHeader name =>
      rw [addLine, runOn_bind, runOn_closeRun, after?]
      cases collector.closed? <;> rfl
  | symbolHeader label =>
      rw [addLine, runOn_bind, runOn_closeRun, after?]
      cases collector.closed? <;> rfl
  | byteRun digits => rfl
  | other => rfl

/-- The collector after lines that are all accepted, or the first refusal. -/
def afterAll? (collector : Collector σ) (lines : List Line) :
    Except MalformedBytes (Collector σ) :=
  lines.foldlM after? collector

theorem afterAll?_cons (collector : Collector σ) (line : Line) (lines : List Line) :
    collector.afterAll? (line :: lines) = collector.after? line >>= (afterAll? · lines) := by
  rw [afterAll?, List.foldlM_cons]
  rfl

theorem runOn_addLines_ok {collector collector' : Collector σ} {lines : List Line}
    (h : collector.afterAll? lines = .ok collector') :
    runOn (addLines lines) collector = (.ok (), collector') := by
  induction lines generalizing collector with
  | nil =>
      cases h
      rfl
  | cons line lines ih =>
      rw [afterAll?_cons] at h
      rw [addLines, runOn_bind, runOn_addLine]
      cases hline : collector.after? line with
      | error e =>
          rw [hline] at h
          cases h
      | ok next =>
          rw [hline] at h
          exact ih h

theorem runOn_addLines_error {collector : Collector σ} {lines : List Line} {e : MalformedBytes}
    (h : collector.afterAll? lines = .error e) :
    (runOn (addLines lines) collector).1 = .error e := by
  induction lines generalizing collector with
  | nil => cases h
  | cons line lines ih =>
      rw [afterAll?_cons] at h
      rw [addLines, runOn_bind, runOn_addLine]
      cases hline : collector.after? line with
      | error e' =>
          rw [hline] at h
          cases h
          rfl
      | ok next =>
          rw [hline] at h
          exact ih h

/-! ## Whole listings -/

/-- The collector at the end of a listing whose lines are taken in and whose last run is closed. -/
def finished? (collector : Collector σ) (lines : List Line) :
    Except MalformedBytes (Collector σ) :=
  collector.afterAll? lines >>= closed?

theorem finished?_cons (collector : Collector σ) (line : Line) (lines : List Line) :
    collector.finished? (line :: lines) = collector.after? line >>= (finished? · lines) := by
  rw [finished?, afterAll?_cons]
  cases collector.after? line <;> rfl

/-- Lines of no interest change nothing. -/
theorem finished?_filter (collector : Collector σ) (lines : List Line) :
    collector.finished? (lines.filter (· ≠ .other)) = collector.finished? lines := by
  induction lines generalizing collector with
  | nil => rfl
  | cons line lines ih =>
      by_cases hother : line = .other
      · rw [List.filter_cons_of_neg (by simpa using hother), ih, hother]
        rfl
      · rw [List.filter_cons_of_pos (by simpa using hother), finished?_cons, finished?_cons]
        cases collector.after? line with
        | error e => rfl
        | ok collector' => exact ih collector'

/-- The lines of a text, told by their shapes. -/
def linesOf (text : String) : List Line := (Text.lines text).map Line.ofString

/-- A listing that is accepted to its end. -/
theorem runOn_collect_ok {collector collector' : Collector σ} {text : String}
    (h : collector.finished? (linesOf text) = .ok collector') :
    runOn (collect text) collector = (.ok collector'.symbols.toList, collector') := by
  rw [finished?] at h
  cases hlines : collector.afterAll? (linesOf text) with
  | error e =>
      rw [hlines] at h
      cases h
  | ok last =>
      rw [hlines] at h
      have hclosed : last.closed? = .ok collector' := h
      have hrun : runOn (collect text) collector = runOn close last :=
        runOn_bind_ok (runOn_addLines_ok hlines)
      rw [runOn_close, hclosed] at hrun
      exact hrun

/-- A listing in which a line, or the end, is refused. -/
theorem runOn_collect_error {collector : Collector σ} {text : String} {e : MalformedBytes}
    (h : collector.finished? (linesOf text) = .error e) :
    (runOn (collect text) collector).1 = .error e := by
  rw [finished?] at h
  cases hlines : collector.afterAll? (linesOf text) with
  | error e' =>
      rw [hlines] at h
      cases h
      exact fst_runOn_bind_error (runOn_addLines_error hlines)
  | ok last =>
      rw [hlines] at h
      have hclosed : last.closed? = .error e := h
      have hrun : runOn (collect text) collector = runOn close last :=
        runOn_bind_ok (runOn_addLines_ok hlines)
      rw [runOn_close, hclosed] at hrun
      exact congrArg Prod.fst hrun

/-- A listing is read line by line, up to the first refusal. -/
theorem symbolsOf_eq (source : σ) (text : String) :
    symbolsOf source text
      = ((ofSource source).finished? (linesOf text)).map (·.symbols.toList) := by
  show (runOn (collect text) (ofSource source)).1 = _
  cases h : (ofSource source).finished? (linesOf text) with
  | ok collector' =>
      rw [runOn_collect_ok h]
      rfl
  | error e =>
      rw [runOn_collect_error h]
      rfl

end ByteEmbed.Listing.Collector
