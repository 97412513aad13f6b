import Mathlib.Data.List.Induction
import ByteEmbed.Proofs.Listing.FirstRefusal

/-!
# ByteEmbed.Proofs.Listing.Spoiled — what comes of a run that has been refused.

A refused header leaves the digits in front of it where they are, and what is read next is put
behind them: the run goes on.  So a collector that has refused every header so far has changed in
nothing but its digits (`afterEach_of_refusesHeaders`), and the next header is refused or not for
all digits since the run began.  A character that is no digit never goes away again; a digit too
many is made up for by the first odd number of digits that a header finds added, and then the whole
run is one symbol, of the section and the label under which it began (`spoiled_run_stays`).
-/

namespace ByteEmbed.Listing

/-! ## The headers of lines -/

/-- `p` holds of every header among the lines and of the lines in front of it. -/
def AtHeaders (p : List Line → Line → Prop) (lines : List Line) : Prop :=
  ∀ earlier header, earlier ++ [header] <+: lines → header.isHeader = true → p earlier header

section

variable {p q : List Line → Line → Prop} {lines : List Line}

theorem atHeaders_nil : AtHeaders p [] := by
  intro earlier header hstart
  simp at hstart

theorem atHeaders_concat_iff {line : Line} :
    AtHeaders p (lines ++ [line]) ↔ AtHeaders p lines ∧ (line.isHeader = true → p lines line) := by
  constructor
  · intro h
    refine ⟨?_, h lines line (List.prefix_refl _)⟩
    intro earlier header hstart
    exact h earlier header (hstart.trans (List.prefix_append _ _))
  · rintro ⟨hlines, hline⟩ earlier header hstart hheader
    rcases List.prefix_concat_iff.mp hstart with heq | hstart
    · obtain ⟨rfl, hlast⟩ := List.append_inj' heq rfl
      obtain rfl := List.singleton_inj.mp hlast
      exact hline hheader
    · exact hlines earlier header hstart hheader

theorem atHeaders_congr
    (h : ∀ earlier header, earlier ++ [header] <+: lines → (p earlier header ↔ q earlier header)) :
    AtHeaders p lines ↔ AtHeaders q lines :=
  forall₂_congr fun earlier header => forall_congr' fun hstart =>
    imp_congr_right fun _ => h earlier header hstart

end

/-- Every header among the lines stands behind an even number of their digits. -/
def EvenAtHeaders (lines : List Line) : Prop :=
  AtHeaders (fun earlier _ => (digitsOf earlier).length % 2 = 0) lines

theorem isHexText_digitsOf_lines {lines : List Line}
    (h : ∀ digits, .byteRun digits ∈ lines → IsHexText digits) : IsHexText (digitsOf lines) := by
  induction lines with
  | nil => exact .empty
  | cons line lines ih =>
      have hrest := ih fun digits hdigits => h digits (List.mem_cons_of_mem _ hdigits)
      have hsplit : digitsOf (line :: lines) = digitsOf [line] ++ digitsOf lines :=
        digitsOf_append [line] lines
      rw [hsplit]
      cases line with
      | byteRun digits =>
          rw [digitsOf_byteRun]
          exact (h digits List.mem_cons_self).append hrest
      | sectionHeader name => exact IsHexText.empty.append hrest
      | symbolHeader label => exact IsHexText.empty.append hrest
      | other => exact IsHexText.empty.append hrest

namespace Collector

variable {σ : Type}

/-! ## Digits that cannot be closed -/

/-- Whatever is put behind it, a byte that is no digit stays. -/
theorem unreadable_append {pending : String}
    (h : ∃ byte ∈ Text.Utf8.encode pending, Digit.isHex (Char.ofUInt8 byte) = false)
    (digits : String) : Unreadable (pending ++ digits) := by
  obtain ⟨byte, hbyte, hnot⟩ := h
  have hmem : byte ∈ Text.Utf8.encode (pending ++ digits) := by
    rw [Text.Utf8.encode_append]
    exact List.mem_append_left _ hbyte
  refine ⟨?_, Or.inr ⟨byte, hmem, hnot⟩⟩
  intro hempty
  rw [hempty] at hmem
  cases hmem

/-- A digit too many is made up for by an odd number of digits, and by nothing else. -/
theorem unreadable_append_iff_even {pending digits : String} (hpending : IsHexText pending)
    (hodd : pending.length % 2 = 1) (hdigits : IsHexText digits) :
    Unreadable (pending ++ digits) ↔ digits.length % 2 = 0 := by
  rw [unreadable_iff_odd (hpending.append hdigits), String.length_append]
  omega

/-- A collection cannot be ended with digits that are unreadable. -/
theorem run_close_of_unreadable {collector : Collector σ} (h : Unreadable collector.pending) :
    close.run collector = (.error collector.refusal, collector) := by
  have hrun := runOn_close collector
  rw [closed?_eq_error_iff.mpr ⟨h, rfl⟩] at hrun
  exact hrun

theorem closing_of_ne_nil {bytes : List UInt8} (h : bytes ≠ []) (collector : Collector σ) :
    closing collector bytes
      = { collector with
            pending := ""
            symbols := collector.symbols.push
              { sectionName := collector.sectionName
                name := collector.name.display
                realName := collector.name.real
                bytes } } := by
  rw [closing, emitted_of_ne_nil h]
  simp

variable [DigitSource σ]

/-! ## One line -/

/-- A line is refused, and leaves the collector as it was. -/
def Refuses (collector : Collector σ) (line : Line) : Prop :=
  ∃ e, (addLine line).run collector = (.error e, collector)

theorem run_addLine (line : Line) (collector : Collector σ) :
    (addLine line).run collector = ofStep (collector.after? line) collector :=
  runOn_addLine line collector

theorem refuses_iff {collector : Collector σ} {line : Line} :
    collector.Refuses line ↔ line.isHeader = true ∧ Unreadable collector.pending := by
  rw [Refuses, run_addLine]
  constructor
  · rintro ⟨e, he⟩
    cases hline : collector.after? line with
    | ok collector' =>
        rw [hline] at he
        cases he
    | error e' =>
        obtain ⟨hheader, hunreadable, -⟩ := after?_eq_error_iff.mp hline
        exact ⟨hheader, hunreadable⟩
  · rintro ⟨hheader, hunreadable⟩
    refine ⟨collector.refusal, ?_⟩
    rw [after?_eq_error_iff.mpr ⟨hheader, hunreadable, rfl⟩]
    rfl

/-- A line that is not refused is accepted. -/
theorem fst_run_addLine_iff {collector : Collector σ} {line : Line} :
    ((addLine line).run collector).1 = .ok () ↔ ¬ collector.Refuses line := by
  rw [Refuses, run_addLine]
  cases collector.after? line with
  | ok collector' =>
      refine iff_of_true rfl ?_
      rintro ⟨e, he⟩
      cases he
  | error e =>
      refine iff_of_false ?_ fun h => h ⟨e, rfl⟩
      intro h
      cases h

/-- A line that is no header adds its digits. -/
theorem run_addLine_of_not_header {line : Line} (h : line.isHeader = false)
    (collector : Collector σ) :
    (addLine line).run collector = (.ok (), collector.gather (digitsOf [line])) := by
  rw [run_addLine, after?_of_not_header h]
  rfl

/-- A header in front of which the digits spell bytes closes the run. -/
theorem run_addLine_of_spells {collector : Collector σ} {header : Line} {bytes : List UInt8}
    (hheader : header.isHeader = true) (h : Hex.Spells collector.pending.toList bytes) :
    (addLine header).run collector = (.ok (), enter (closing collector bytes) header) := by
  rw [run_addLine, after?_header hheader, closed?_of_spells h]
  rfl

/-! ## Runs on which every header is refused -/

/-- Every header among the lines is refused when they are fed one after the other. -/
def RefusesHeaders (collector : Collector σ) (lines : List Line) : Prop :=
  AtHeaders (fun earlier header => (collector.afterEach earlier).Refuses header) lines

theorem afterEach_concat (collector : Collector σ) (lines : List Line) (line : Line) :
    collector.afterEach (lines ++ [line])
      = ((addLine line).run (collector.afterEach lines)).2 := by
  rw [afterEach, List.foldl_concat]
  rfl

/-- As long as headers are refused, nothing changes but the digits. -/
theorem afterEach_of_refusesHeaders {collector : Collector σ} {lines : List Line}
    (h : collector.RefusesHeaders lines) :
    collector.afterEach lines = collector.gather (digitsOf lines) := by
  induction lines using List.reverseRecOn with
  | nil => simp [afterEach, gather]
  | append_singleton lines line ih =>
      obtain ⟨hlines, hline⟩ := atHeaders_concat_iff.mp h
      rw [afterEach_concat, digitsOf_append]
      cases hheader : line.isHeader with
      | true =>
          obtain ⟨e, he⟩ := hline hheader
          rw [he, digitsOf_header hheader, String.append_empty]
          exact ih hlines
      | false =>
          rw [run_addLine_of_not_header hheader, ih hlines]
          simp [gather, String.append_assoc]

/-- Headers are refused exactly for the digits that stand in front of them since the run began. -/
theorem refusesHeaders_iff {collector : Collector σ} {lines : List Line} :
    collector.RefusesHeaders lines
      ↔ AtHeaders (fun earlier _ => Unreadable (collector.pending ++ digitsOf earlier)) lines := by
  induction lines using List.reverseRecOn with
  | nil => exact iff_of_true atHeaders_nil atHeaders_nil
  | append_singleton lines line ih =>
      rw [RefusesHeaders, atHeaders_concat_iff, atHeaders_concat_iff, ← ih]
      apply and_congr_right
      intro hlines
      rw [afterEach_of_refusesHeaders hlines, refuses_iff]
      exact forall_congr' fun hheader => and_iff_right hheader

/-! ## What comes of the run -/

/-- With a digit too many, headers are refused as long as they find an even number added. -/
theorem refusesHeaders_iff_even {collector : Collector σ} (hpending : IsHexText collector.pending)
    (hodd : collector.pending.length % 2 = 1) {lines : List Line}
    (hlines : ∀ digits, .byteRun digits ∈ lines → IsHexText digits) :
    collector.RefusesHeaders lines ↔ EvenAtHeaders lines := by
  rw [refusesHeaders_iff]
  apply atHeaders_congr
  intro earlier header hstart
  apply unreadable_append_iff_even hpending hodd
  apply isHexText_digitsOf_lines
  intro digits hdigits
  exact hlines digits (hstart.subset (List.mem_append_left _ hdigits))

/-- A header that finds an odd number of digits added closes the run. -/
theorem exists_run_addLine_of_odd {collector : Collector σ} (hpending : IsHexText collector.pending)
    (hodd : collector.pending.length % 2 = 1) {digits : String} (hdigits : IsHexText digits)
    (hadded : digits.length % 2 = 1) {header : Line} (hheader : header.isHeader = true) :
    ∃ bytes, Hex.Spells (collector.pending ++ digits).toList bytes
      ∧ (addLine header).run (collector.gather digits)
        = (.ok (), enter
            { collector with
              pending := ""
              symbols := collector.symbols.push
                { sectionName := collector.sectionName
                  name := collector.name.display
                  realName := collector.name.real
                  bytes } } header) := by
  have heven : (collector.pending ++ digits).toList.length % 2 = 0 := by
    rw [String.length_toList, String.length_append]
    omega
  obtain ⟨bytes, hbytes⟩ := Hex.exists_spells_iff.mpr ⟨heven, hpending.append hdigits⟩
  have hne : bytes ≠ [] := by
    apply hbytes.ne_nil
    intro hempty
    have hlength := congrArg String.length hempty
    rw [String.length_append, String.length_empty] at hlength
    omega
  refine ⟨bytes, hbytes, ?_⟩
  have hspells : Hex.Spells (collector.gather digits).pending.toList bytes := hbytes
  rw [run_addLine_of_spells hheader hspells, closing_of_ne_nil hne]
  rfl

/-- **A spoiled run stays with its symbol.** If the digits gathered hold a byte that is no digit,
then whatever lines are fed, every header is refused, nothing changes but the digits, to which those
of the lines are added, and the collection cannot be ended.  If they are digits, but odd in number,
and only digits are fed, then headers are refused as long as they find an even number of digits
added; the first header that is accepted is the first that finds an odd number, and it makes one
symbol of all digits, with the section and the name that were in effect from the start. -/
theorem spoiled_run_stays (collector : Collector σ) :
    ((∃ byte ∈ Text.Utf8.encode collector.pending, Digit.isHex (Char.ofUInt8 byte) = false) →
      ∀ lines,
        collector.RefusesHeaders lines
        ∧ collector.afterEach lines
          = { collector with pending := collector.pending ++ digitsOf lines }
        ∧ ∃ e, close.run (collector.afterEach lines) = (.error e, collector.afterEach lines))
    ∧ (IsHexText collector.pending → collector.pending.length % 2 = 1 →
      ∀ lines, (∀ digits, .byteRun digits ∈ lines → IsHexText digits) →
        (collector.RefusesHeaders lines ↔ EvenAtHeaders lines)
        ∧ ∀ header, header.isHeader = true →
          (collector.RefusesHeaders lines
              ∧ ((addLine header).run (collector.afterEach lines)).1 = .ok ()
            ↔ EvenAtHeaders lines ∧ (digitsOf lines).length % 2 = 1)
          ∧ (EvenAtHeaders lines → (digitsOf lines).length % 2 = 1 →
            ∃ bytes, Hex.Spells (collector.pending ++ digitsOf lines).toList bytes
              ∧ (addLine header).run (collector.afterEach lines)
                = (.ok (), enter
                    { collector with
                      pending := ""
                      symbols := collector.symbols.push
                        { sectionName := collector.sectionName
                          name := collector.name.display
                          realName := collector.name.real
                          bytes } } header))) := by
  refine ⟨?_, ?_⟩
  · intro hspoiled lines
    have hunreadable := unreadable_append hspoiled
    have hrefuses : collector.RefusesHeaders lines :=
      refusesHeaders_iff.mpr fun earlier _ _ _ => hunreadable (digitsOf earlier)
    have hafter := afterEach_of_refusesHeaders hrefuses
    refine ⟨hrefuses, hafter, ?_⟩
    rw [hafter]
    exact ⟨_, run_close_of_unreadable (hunreadable (digitsOf lines))⟩
  · intro hpending hodd lines hlines
    have heven := refusesHeaders_iff_even hpending hodd hlines
    have hdigits := isHexText_digitsOf_lines hlines
    refine ⟨heven, ?_⟩
    intro header hheader
    refine ⟨?_, ?_⟩
    · rw [← heven]
      apply and_congr_right
      intro hrefuses
      have hpendingIff : Unreadable (collector.gather (digitsOf lines)).pending
          ↔ (digitsOf lines).length % 2 = 0 := unreadable_append_iff_even hpending hodd hdigits
      rw [afterEach_of_refusesHeaders hrefuses, fst_run_addLine_iff, refuses_iff,
        and_iff_right hheader, hpendingIff]
      omega
    · intro hlinesEven hlinesOdd
      rw [afterEach_of_refusesHeaders (heven.mpr hlinesEven)]
      exact exists_run_addLine_of_odd hpending hodd hdigits hlinesOdd hheader

/-- A new collector into which some digits have been gathered. -/
def started (digits : String) : Collector Xoshiro := gather digits (ofSource (Xoshiro.ofSeed 0))

/-- A character that is no digit, and a digit too many, which the first header finds still there and
the second one made up for. -/
theorem spoiled_run_stays_two_runs :
    (∃ byte ∈ Text.Utf8.encode (started "0é").pending, Digit.isHex (Char.ofUInt8 byte) = false)
    ∧ (started "0é").RefusesHeaders [.byteRun "00", .symbolHeader "f", .sectionHeader ".data"]
    ∧ (IsHexText (started "123").pending ∧ (started "123").pending.length % 2 = 1
      ∧ (∀ digits, .byteRun digits ∈ [Line.byteRun "45", .symbolHeader "f", .byteRun "6"] →
        IsHexText digits)
      ∧ (Line.sectionHeader ".data").isHeader = true)
    ∧ (started "123").RefusesHeaders [.byteRun "45", .symbolHeader "f", .byteRun "6"]
    ∧ ((addLine (.sectionHeader ".data")).run
        ((started "123").afterEach
          [.byteRun "45", .symbolHeader "f", .byteRun "6"])).1 = .ok () := by
  have hspoiled : ∃ byte ∈ Text.Utf8.encode (started "0é").pending,
      Digit.isHex (Char.ofUInt8 byte) = false := ⟨0xc3, by decide +kernel, by decide⟩
  have hpending : IsHexText (started "123").pending := List.all_eq_true.mp (by decide +kernel)
  have hodd : (started "123").pending.length % 2 = 1 := by decide +kernel
  have hlines : ∀ digits, .byteRun digits ∈ [Line.byteRun "45", .symbolHeader "f", .byteRun "6"] →
      IsHexText digits := by
    intro digits hdigits
    have hcases : digits = "45" ∨ digits = "6" := by simpa using hdigits
    rcases hcases with rfl | rfl
    · exact List.all_eq_true.mp (by decide)
    · exact List.all_eq_true.mp (by decide)
  have heven : EvenAtHeaders
      ([] ++ [Line.byteRun "45"] ++ [.symbolHeader "f"] ++ [.byteRun "6"]) := by
    rw [EvenAtHeaders, atHeaders_concat_iff, atHeaders_concat_iff, atHeaders_concat_iff]
    exact ⟨⟨⟨atHeaders_nil, nofun⟩, fun _ => by decide⟩, nofun⟩
  obtain ⟨hrefused, -, -⟩ := (spoiled_run_stays (started "0é")).1 hspoiled
    [.byteRun "00", .symbolHeader "f", .sectionHeader ".data"]
  obtain ⟨-, hheaders⟩ := (spoiled_run_stays (started "123")).2 hpending hodd
    [.byteRun "45", .symbolHeader "f", .byteRun "6"] hlines
  have hfirst := (hheaders (.sectionHeader ".data") rfl).1.mpr ⟨heven, by decide⟩
  exact ⟨hspoiled, hrefused, ⟨hpending, hodd, hlines, rfl⟩, hfirst⟩

end Collector

end ByteEmbed.Listing
