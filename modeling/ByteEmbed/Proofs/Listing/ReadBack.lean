import Mathlib.Data.List.Forall2
import ByteEmbed.Proofs.Listing.Group
import ByteEmbed.Proofs.Listing.Printed

/-!
# ByteEmbed.Proofs.Listing.ReadBack — a printed listing is read back.

First the text is cut into the lines that were printed, up to lines of no interest
(`told_intercalate`).  Then the lines are followed by what they do to a collector: the headers of an
entry close the run before it and put its section and label into effect, its byte lines gather
digits that spell its bytes, and the run stays open until the next header or the end
(`finished?_prints`).
-/

namespace ByteEmbed.Listing

open Collector (closed? closed?_of_empty closing closed?_of_spells toList_symbols_closing emitted
  emitted_of_ne_nil after? finished? finished?_cons linesOf gather enterSection enterSymbol)

/-! ## Lines of a printed text -/

/-- A text that is told as one line, whatever ends it. -/
structure IsLine (raw : String) : Prop where
  no_feed : '\n' ∉ raw.toList
  told_eq : Line.ofChars (Text.withoutReturn raw.toList) = Line.ofString raw

/-- A header ends in a colon, so a line end takes nothing with it. -/
theorem isLine_of_colon {raw : String} {text : List Char} (htext : raw.toList = text ++ [':'])
    (hfeed : '\n' ∉ text) : IsLine raw := by
  refine ⟨?_, ?_⟩
  · rw [htext]
    simpa using hfeed
  · rw [Line.ofString, htext, Text.withoutReturn_snoc_of_ne (by decide)]

theorem isLine_of_not_header {raw : String} (hfeed : '\n' ∉ raw.toList)
    (h : (Line.ofString raw).isHeader = false) : IsLine raw :=
  ⟨hfeed, Line.ofChars_withoutReturn h⟩

theorem isLine_sectionLine {name : String} (h : '\n' ∉ name.toList) :
    IsLine (sectionLine name) := by
  have hwords : '\n' ∉ "Disassembly of section ".toList := by decide +kernel
  refine isLine_of_colon (toList_closed _ name) ?_
  intro hfeed
  rcases List.mem_append.mp hfeed with hfeed | hfeed
  · exact hwords hfeed
  · exact h hfeed

theorem isLine_symbolLine {label : String} (h : '\n' ∉ label.toList) :
    IsLine (symbolLine label) := by
  have htext : (symbolLine label).toList = '<' :: (label.toList ++ ['>']) ++ [':'] := by
    rw [toList_symbolLine]
    simp
  refine isLine_of_colon htext ?_
  simpa using h

/-- Digits and spaces hold no line feed. -/
theorem Pairs.no_feed {bytes : List UInt8} {text : List Char} (h : Pairs bytes text) :
    '\n' ∉ text := by
  have hdigit : ∀ {c : Char} {value : Nat}, Digit.value? 16 c = some value → '\n' ≠ c := by
    rintro c value hvalue rfl
    have hnone : Digit.value? 16 '\n' = none := by decide
    rw [hnone] at hvalue
    cases hvalue
  induction h with
  | nil => simp
  | cons spaces hhigh hlow hrest ih => simp [hdigit hhigh, hdigit hlow, ih]

theorem isLine_byteLine {bytes : List UInt8} {line : String} (h : ByteLine bytes line) :
    IsLine line := by
  obtain ⟨digits, hdigits, -⟩ := ofString_byteLine h
  obtain ⟨-, hpairs, htail⟩ := h
  refine isLine_of_not_header ?_ (by rw [hdigits]; rfl)
  simp [hpairs.no_feed, htail.line]

theorem isLine_of_mem_byteLines {bytes : List UInt8} {lines : List String}
    (h : ByteLines bytes lines) : ∀ line ∈ lines, IsLine line := by
  induction h with
  | nil => simp
  | cons hline hrest ih =>
      intro line hmem
      rcases List.mem_cons.mp hmem with rfl | hmem
      · exact isLine_byteLine hline
      · exact ih line hmem

theorem isLine_of_mem_sectionLines {current name : String} (h : '\n' ∉ name.toList) :
    ∀ line ∈ sectionLines current name, IsLine line := by
  unfold sectionLines
  split
  · simp
  · intro line hmem
    rw [List.mem_singleton.mp hmem]
    exact isLine_sectionLine h

theorem isLine_of_mem_prints {current : String} {entries : List Entry} {lines : List String}
    (h : Prints current entries lines) : ∀ line ∈ lines, IsLine line := by
  induction h with
  | nil => simp
  | cons hbytes hrest ih =>
      rename_i entry entries byteLines lines
      intro line hmem
      rcases List.mem_append.mp hmem with hmem | hmem
      · exact isLine_of_mem_sectionLines entry.section_line line hmem
      · rcases List.mem_cons.mp hmem with rfl | hmem
        · exact isLine_symbolLine entry.label_line
        · rcases List.mem_append.mp hmem with hmem | hmem
          · exact isLine_of_mem_byteLines hbytes line hmem
          · exact ih line hmem

theorem isLine_of_mem_withNoise {lines raws : List String} (h : WithNoise lines raws)
    (hlines : ∀ line ∈ lines, IsLine line) : ∀ raw ∈ raws, IsLine raw := by
  induction h with
  | nil => simp
  | line hrest ih =>
      rename_i first lines raws
      intro raw hmem
      rcases List.mem_cons.mp hmem with rfl | hmem
      · exact hlines _ List.mem_cons_self
      · exact ih (fun l hl => hlines l (List.mem_cons_of_mem _ hl)) raw hmem
  | noise hother hfeed hrest ih =>
      intro raw hmem
      rcases List.mem_cons.mp hmem with rfl | hmem
      · exact isLine_of_not_header hfeed (by rw [hother]; rfl)
      · exact ih hlines raw hmem

/-- Only noise is told to be of no interest, and noise is passed over. -/
theorem told_withNoise {lines raws : List String} (h : WithNoise lines raws) :
    (raws.map Line.ofString).filter (· ≠ .other)
      = (lines.map Line.ofString).filter (· ≠ .other) := by
  induction h with
  | nil => rfl
  | line hrest ih => rw [List.map_cons, List.map_cons, List.filter_cons, List.filter_cons, ih]
  | noise hother hfeed hrest ih =>
      rw [List.map_cons, hother, List.filter_cons_of_neg (by simp), ih]

/-- What counts in a text is what counts in its lines. -/
theorem told_intercalate {raws : List String} (h : ∀ raw ∈ raws, IsLine raw) :
    (linesOf ("\n".intercalate raws)).filter (· ≠ .other)
      = (raws.map Line.ofString).filter (· ≠ .other) := by
  rcases raws.eq_nil_or_concat with rfl | ⟨init, last, rfl⟩
  · rfl
  · rw [List.concat_eq_append] at h ⊢
    have hinit : ∀ raw ∈ init, IsLine raw := fun raw hraw => h raw (by simp [hraw])
    have hlast : IsLine last := h last (by simp)
    have htold : init.map (Line.ofString ∘ fun raw => String.ofList (Text.withoutReturn raw.toList))
        = init.map Line.ofString := by
      apply List.map_congr_left
      intro raw hraw
      rw [Function.comp_apply, Line.ofString, String.toList_ofList]
      exact (hinit raw hraw).told_eq
    rw [linesOf, Text.lines_intercalate (fun raw hraw => (hinit raw hraw).no_feed) hlast.no_feed,
      List.map_append, List.map_map, htold, List.map_append, List.filter_append,
      List.filter_append]
    congr 1
    by_cases hempty : last = ""
    · -- an empty last line is no line, and would be of no interest
      rw [if_pos hempty, hempty]
      rfl
    · rw [if_neg hempty]

/-! ## What printed lines do -/

variable {σ : Type} [DigitSource σ]

/-- The headers of an entry close the run before it, and put its section and label into effect. -/
theorem finished?_headers {collector : Collector σ} {bytes : List UInt8}
    (h : Hex.Spells collector.pending.toList bytes) {name : String}
    (hdot : name.toList.head? = some '.') (label : String) (lines : List Line) :
    collector.finished? ((sectionLines collector.sectionName name).map Line.ofString
        ++ Line.ofString (symbolLine label) :: lines)
      = (enterSymbol label (enterSection name (closing collector bytes))).finished? lines := by
  have hclosed : collector.closed? = .ok (closing collector bytes) := closed?_of_spells h
  rw [ofString_symbolLine]
  by_cases hname : name = collector.sectionName
  · -- no header of a section: that of the symbol closes the run
    have hsame : enterSection name (closing collector bytes) = closing collector bytes := by
      rw [hname]
      rfl
    have hlines : sectionLines collector.sectionName name = [] := if_pos hname
    rw [hlines, hsame, List.map_nil, List.nil_append, finished?_cons, after?, hclosed]
    rfl
  · -- the header of the section closes the run, and that of the symbol finds none
    have hlines : sectionLines collector.sectionName name = [sectionLine name] := if_neg hname
    have hempty : (enterSection name (closing collector bytes)).closed?
        = .ok (enterSection name (closing collector bytes)) := closed?_of_empty rfl
    rw [hlines, List.map_singleton, ofString_sectionLine hdot, List.singleton_append,
      finished?_cons, after?, hclosed]
    show (enterSection name (closing collector bytes)).finished? (.symbolHeader label :: lines) = _
    rw [finished?_cons, after?, hempty]
    rfl

/-- Byte lines gather digits that spell their bytes. -/
theorem finished?_byteLines {bytes : List UInt8} {byteLines : List String}
    (h : ByteLines bytes byteLines) :
    ∃ digits : String, Hex.Spells digits.toList bytes
      ∧ ∀ (collector : Collector σ) (lines : List Line),
        collector.finished? (byteLines.map Line.ofString ++ lines)
          = (gather digits collector).finished? lines := by
  induction h with
  | nil =>
      refine ⟨"", .nil, ?_⟩
      intro collector lines
      rw [gather, String.append_empty]
      rfl
  | cons hline hrest ih =>
      obtain ⟨digits, hdigits, hspells⟩ := ofString_byteLine hline
      obtain ⟨later, hlater, hgather⟩ := ih
      refine ⟨digits ++ later, ?_, ?_⟩
      · rw [String.toList_append]
        exact hspells.append hlater
      · intro collector lines
        rw [List.map_cons, hdigits, List.cons_append, finished?_cons, after?]
        show (gather digits collector).finished? _ = _
        rw [hgather, gather, gather, gather, String.append_assoc]

/-- From any state of the pass: printed entries are read back behind what has been read so far. -/
theorem finished?_prints {current : String} {entries : List Entry} {lines : List String}
    (h : Prints current entries lines) {collector : Collector σ}
    (hsection : collector.sectionName = current) {bytes : List UInt8}
    (hpending : Hex.Spells collector.pending.toList bytes) :
    ∃ records last, collector.finished? (lines.map Line.ofString) = .ok last
      ∧ last.symbols.toList = collector.symbols.toList ++ emitted collector bytes ++ records
      ∧ List.Forall₂ IsRecordOf entries records := by
  induction h generalizing collector bytes with
  | nil =>
      refine ⟨[], closing collector bytes, closed?_of_spells hpending, ?_, .nil⟩
      rw [toList_symbols_closing, List.append_nil]
  | cons hbytes hrest ih =>
      rename_i current entry entries byteLines lines
      obtain ⟨digits, hspells, hgather⟩ := finished?_byteLines (σ := σ) hbytes
      -- the state in which the lines behind this entry are read, its run still open
      let opened := gather digits
        (enterSymbol entry.label (enterSection entry.sectionName (closing collector bytes)))
      have hopened : Hex.Spells opened.pending.toList entry.bytes := by
        show Hex.Spells ("" ++ digits).toList entry.bytes
        rwa [String.empty_append]
      have hrecord : IsRecordOf entry
          { sectionName := opened.sectionName
            name := opened.name.display
            realName := opened.name.real
            bytes := entry.bytes } :=
        ⟨rfl, real_nameOf _ _, rfl⟩
      obtain ⟨records, last, hlast, hsymbols, hrecords⟩ := @ih opened rfl entry.bytes hopened
      rw [emitted_of_ne_nil entry.bytes_ne_nil] at hsymbols
      refine ⟨_ :: records, last, ?_, ?_, .cons hrecord hrecords⟩
      · rw [List.map_append, List.map_cons, List.map_append, ← hsection,
          finished?_headers hpending entry.section_dot, hgather]
        exact hlast
      · have hread : opened.symbols.toList = collector.symbols.toList ++ emitted collector bytes :=
          toList_symbols_closing collector bytes
        rw [hsymbols, hread, List.append_assoc]
        rfl

/-! ## Whole listings -/

/-- **A printed listing is read back.** Whatever entries were printed, however their bytes were cut
and spaced, whatever stands behind them and between the lines: the symbols of the text are those of
the entries, in order.  An empty line of no interest at the end ends the line before it. -/
theorem symbolsOf_prints (source : σ) {entries : List Entry} {lines raws : List String}
    (hprints : Prints Collector.defaultSection entries lines) (hnoise : WithNoise lines raws) :
    ∃ symbols, symbolsOf source ("\n".intercalate raws) = .ok symbols
      ∧ List.Forall₂ IsRecordOf entries symbols := by
  have hlines := isLine_of_mem_withNoise hnoise (isLine_of_mem_prints hprints)
  obtain ⟨records, last, hlast, hsymbols, hrecords⟩ :=
    @finished?_prints σ _ _ _ _ hprints (Collector.ofSource source) rfl [] .nil
  have hread : (Collector.ofSource source).finished? (linesOf ("\n".intercalate raws))
      = .ok last := by
    rw [← Collector.finished?_filter, told_intercalate hlines, told_withNoise hnoise,
      Collector.finished?_filter, hlast]
  refine ⟨records, ?_, hrecords⟩
  rw [Collector.symbolsOf_eq, hread]
  show Except.ok last.symbols.toList = _
  rw [hsymbols]
  rfl

/-- A label that holds the end of a header, bytes cut over two lines, and a change of section. -/
theorem symbolsOf_prints_two_entries :
    ∃ symbols, symbolsOf (Xoshiro.ofSeed 0)
        "<f>:é>:\n\t55 \nnoise\n\t4e\tadd\nDisassembly of section .init:\n<g>:\n\t9090 ret\n"
        = .ok symbols
      ∧ symbols.map (fun symbol => (symbol.sectionName, symbol.realName, symbol.bytes))
        = [(".text", "f>:é", [0x55, 0x4E]), (".init", "g", [0x90, 0x90])] := by
  let first : Entry :=
    ⟨".text", "f>:é", [0x55, 0x4E], by decide, by decide, by decide, by decide⟩
  let second : Entry := ⟨".init", "g", [0x90, 0x90], by decide, by decide, by decide, by decide⟩
  have htail : IsTail [' '] := ⟨by decide, by intro c hc; cases hc⟩
  have htail' : IsTail ['\t', 'a', 'd', 'd'] := ⟨by decide, by intro c hc; cases hc; decide⟩
  have htail'' : IsTail [' ', 'r', 'e', 't'] := ⟨by decide, by intro c hc; cases hc; decide⟩
  have hfirst : ByteLines first.bytes ["\t55 ", "\t4e\tadd"] :=
    .cons (.intro (by decide) (.cons 0 (by decide) (by decide) .nil) htail)
      (.cons (.intro (by decide) (.cons 0 (by decide) (by decide) .nil) htail') .nil)
  have hsecond : ByteLines second.bytes ["\t9090 ret"] :=
    .cons (.intro (by decide) (.cons 0 (by decide) (by decide)
      (.cons 0 (by decide) (by decide) .nil)) htail'') .nil
  have hprints : Prints Collector.defaultSection [first, second] _ :=
    .cons hfirst (.cons hsecond .nil)
  have hnoise : WithNoise _ ["<f>:é>:", "\t55 ", "noise", "\t4e\tadd",
      "Disassembly of section .init:", "<g>:", "\t9090 ret", ""] :=
    .line (.line (.noise (by decide) (by decide) (.line (.line (.line (.line
      (.noise (by decide) (by decide) .nil)))))))
  obtain ⟨symbols, hsymbols, hrecords⟩ :=
    symbolsOf_prints (Xoshiro.ofSeed 0) hprints hnoise
  refine ⟨symbols, hsymbols, ?_⟩
  obtain ⟨record, rest, hrecord, hrest, rfl⟩ := List.forall₂_cons_left_iff.mp hrecords
  obtain ⟨record', rest', hrecord', hrest', rfl⟩ := List.forall₂_cons_left_iff.mp hrest
  cases hrest'
  simp [hrecord.section_eq, hrecord.real_eq, hrecord.bytes_eq, hrecord'.section_eq,
    hrecord'.real_eq, hrecord'.bytes_eq, first, second]

end ByteEmbed.Listing
