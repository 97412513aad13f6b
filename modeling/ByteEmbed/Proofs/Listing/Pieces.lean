import ByteEmbed.Proofs.Listing.Refusal

/-!
# ByteEmbed.Proofs.Listing.Pieces — a listing that is taken in piece by piece.

A listing can be collected at once, or its first lines can be fed one by one and the rest collected
behind them.  The two agree wherever the listing is cut, as long as the cut is a line end: the lines
of the two pieces are then the lines of the whole, and all that a collector knows of the lines so
far is its state.  A run of digits may be open at the cut, and the first piece may contain the line
at which the collection is refused; then the whole is refused at that line, for the same reason
(`collect_in_pieces`).
-/

namespace ByteEmbed.Listing.Collector

variable {σ : Type} [DigitSource σ]

/-- The lines of two texts, the first of which stops at a line end. -/
theorem linesOf_append {text : String} (h : Text.Ended text) (more : String) :
    linesOf (text ++ more) = linesOf text ++ linesOf more := by
  unfold linesOf
  rw [Text.lines_append h, List.map_append]

/-! ## Lines that are all accepted -/

/-- Lines behind lines that were taken in go on from where those lead. -/
theorem runOn_addLines_append {collector collector' : Collector σ} {lines : List Line}
    (h : runOn (addLines lines) collector = (.ok (), collector')) (more : List Line) :
    runOn (addLines (lines ++ more)) collector = runOn (addLines more) collector' := by
  induction lines generalizing collector with
  | nil =>
      cases h
      rfl
  | cons line lines ih =>
      have hstep := runOn_addLine line collector
      cases hline : collector.after? line with
      | ok next =>
          rw [hline] at hstep
          rw [addLines, runOn_bind_ok hstep] at h
          rw [List.cons_append, addLines, runOn_bind_ok hstep]
          exact ih h
      | error e =>
          rw [hline] at hstep
          rw [addLines, runOn_bind_error hstep] at h
          cases h

/-- Lines of which none is refused lead, fed one by one, where the whole of them leads. -/
theorem runOn_addLines_accepted {collector : Collector σ} {lines : List Line}
    (h : collector.accepted lines = lines) (more : List Line) :
    runOn (addLines (lines ++ more)) collector
      = runOn (addLines more) (collector.afterEach lines) := by
  have hlines := runOn_accepted collector lines
  rw [h] at hlines
  exact runOn_addLines_append hlines more

/-! ## The first refusal -/

/-- `line` is the first of some lines that is refused when they are fed one by one, and `e` is what
it is refused for. -/
structure FirstRefused (collector : Collector σ) (lines earlier : List Line) (line : Line)
    (e : MalformedBytes) : Prop where
  splits : ∃ later, lines = earlier ++ line :: later
  accepted : collector.accepted earlier = earlier
  refused : (addLine line).run (collector.afterEach earlier)
    = (.error e, collector.afterEach earlier)

/-- Either every line is accepted or one of them is the first that is not. -/
theorem exists_firstRefused {collector : Collector σ} {lines : List Line}
    (h : collector.accepted lines ≠ lines) :
    ∃ earlier line e, collector.FirstRefused lines earlier line e := by
  induction lines generalizing collector with
  | nil => exact absurd rfl h
  | cons line lines ih =>
      have hstep := runOn_addLine line collector
      cases hline : collector.after? line with
      | ok next =>
          rw [hline] at hstep
          rw [(afterEach_cons_ok hstep lines).2, ne_eq, List.cons.injEq, and_iff_right rfl] at h
          obtain ⟨earlier, refused, e, ⟨later, hlater⟩, haccepted, hrefused⟩ := ih h
          obtain ⟨hafter, hfed⟩ := afterEach_cons_ok hstep earlier
          refine ⟨line :: earlier, refused, e, ⟨later, ?_⟩, ?_, ?_⟩
          · rw [hlater, List.cons_append]
          · rw [hfed, haccepted]
          · rw [hafter]
            exact hrefused
      | error e =>
          rw [hline] at hstep
          exact ⟨[], line, e, ⟨lines, rfl⟩, rfl, hstep⟩

/-- The whole of the lines, and whatever is fed behind them, is refused for the first of them that
is. -/
theorem FirstRefused.runOn_addLines {collector : Collector σ} {lines earlier : List Line}
    {line : Line} {e : MalformedBytes} (h : collector.FirstRefused lines earlier line e)
    (more : List Line) :
    runOn (addLines (lines ++ more)) collector = (.error e, collector.afterEach earlier) := by
  obtain ⟨later, rfl⟩ := h.splits
  have hrefused : runOn (addLine line) (collector.afterEach earlier)
      = (.error e, collector.afterEach earlier) := h.refused
  rw [List.append_assoc, runOn_addLines_accepted h.accepted, List.cons_append, addLines,
    runOn_bind_error hrefused]

/-! ## Whole listings -/

/-- What a collection gives depends on its lines through where they lead. -/
theorem runOn_collect_congr {collector collector' : Collector σ} {text text' : String}
    (h : runOn (addLines (linesOf text)) collector
      = runOn (addLines (linesOf text')) collector') :
    runOn (collect text) collector = runOn (collect text') collector' := by
  show runOn (addLines (linesOf text) >>= fun _ => close) collector
    = runOn (addLines (linesOf text') >>= fun _ => close) collector'
  rw [runOn_bind, runOn_bind, h]

/-- **Feeding in pieces is collecting at once.** Let the lines of a text be fed one by one to a
collector.  If none is refused, then ending the collection there gives what the text gives at once,
and if the text stops at a line end, collecting more text there gives what the two texts give at
once.  If one is refused, the first of them is what the text, and the text with more behind it, is
refused for. -/
theorem collect_in_pieces (collector : Collector σ) (text : String) :
    (collector.accepted (linesOf text) = linesOf text →
      (collect text).run collector = close.run (collector.afterEach (linesOf text))
      ∧ (Text.Ended text → ∀ more, (collect (text ++ more)).run collector
          = (collect more).run (collector.afterEach (linesOf text))))
    ∧ (collector.accepted (linesOf text) ≠ linesOf text →
      ∃ earlier line e, collector.FirstRefused (linesOf text) earlier line e
        ∧ (collect text).run collector = (.error e, collector.afterEach earlier)
        ∧ (Text.Ended text → ∀ more,
          (collect (text ++ more)).run collector = (.error e, collector.afterEach earlier))) := by
  constructor
  · intro haccepted
    have hrun := runOn_accepted collector (linesOf text)
    rw [haccepted] at hrun
    refine ⟨runOn_bind_ok hrun, ?_⟩
    intro hended more
    apply runOn_collect_congr
    rw [linesOf_append hended, runOn_addLines_accepted haccepted]
  · intro hrefused
    obtain ⟨earlier, line, e, hfirst⟩ := exists_firstRefused hrefused
    refine ⟨earlier, line, e, hfirst, ?_, ?_⟩
    · have hrun := hfirst.runOn_addLines []
      rw [List.append_nil] at hrun
      exact runOn_bind_error hrun
    · intro hended more
      have hrun := hfirst.runOn_addLines (linesOf more)
      rw [← linesOf_append hended] at hrun
      exact runOn_bind_error hrun

/-- A cut into an open run of digits, with line ends of both kinds and a last line that is not
ended, and a piece that a header in it is refused for. -/
theorem collect_in_pieces_open_run :
    Text.Ended "<f>:\r\n\t90 9\n"
    ∧ (ofSource (Xoshiro.ofSeed 0)).accepted (linesOf "<f>:\r\n\t90 9\n")
      = linesOf "<f>:\r\n\t90 9\n"
    ∧ (collect "\t0\n<g>:\n\tc3").run
        ((ofSource (Xoshiro.ofSeed 0)).afterEach (linesOf "<f>:\r\n\t90 9\n"))
      = (collect ("<f>:\r\n\t90 9\n" ++ "\t0\n<g>:\n\tc3")).run (ofSource (Xoshiro.ofSeed 0))
    ∧ symbolsOf (Xoshiro.ofSeed 0) ("<f>:\r\n\t90 9\n" ++ "\t0\n<g>:\n\tc3")
      = .ok [ { sectionName := ".text", name := "f", realName := "f", bytes := [0x90, 0x90] },
              { sectionName := ".text", name := "g", realName := "g", bytes := [0xc3] } ]
    ∧ Text.Ended "<f>:\n\t9\n<g>:\n"
    ∧ (ofSource (Xoshiro.ofSeed 0)).accepted (linesOf "<f>:\n\t9\n<g>:\n")
      ≠ linesOf "<f>:\n\t9\n<g>:\n"
    ∧ ∃ earlier line e,
        (ofSource (Xoshiro.ofSeed 0)).FirstRefused (linesOf "<f>:\n\t9\n<g>:\n") earlier line e
        ∧ ((collect ("<f>:\n\t9\n<g>:\n" ++ "\t0\n")).run (ofSource (Xoshiro.ofSeed 0))).1
          = .error e := by
  have hended : Text.Ended "<f>:\r\n\t90 9\n" := Or.inr ⟨"<f>:\r\n\t90 9", by decide⟩
  have haccepted : (ofSource (Xoshiro.ofSeed 0)).accepted (linesOf "<f>:\r\n\t90 9\n")
      = linesOf "<f>:\r\n\t90 9\n" := by decide +kernel
  have hended' : Text.Ended "<f>:\n\t9\n<g>:\n" := Or.inr ⟨"<f>:\n\t9\n<g>:", by decide⟩
  have hrefused : (ofSource (Xoshiro.ofSeed 0)).accepted (linesOf "<f>:\n\t9\n<g>:\n")
      ≠ linesOf "<f>:\n\t9\n<g>:\n" := by decide +kernel
  obtain ⟨-, hpieces⟩ := (collect_in_pieces (ofSource (Xoshiro.ofSeed 0)) _).1 haccepted
  obtain ⟨earlier, line, e, hfirst, -, hwhole⟩ :=
    (collect_in_pieces (ofSource (Xoshiro.ofSeed 0)) _).2 hrefused
  refine ⟨hended, haccepted, (hpieces hended _).symm, by decide +kernel, hended', hrefused,
    earlier, line, e, hfirst, ?_⟩
  exact congrArg Prod.fst (hwhole hended' "\t0\n")

end ByteEmbed.Listing.Collector
