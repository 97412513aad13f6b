import ByteEmbed.Proofs.Listing.FirstRefusal
import ByteEmbed.Proofs.Naming.Run

/-!
# ByteEmbed.Proofs.Listing.Naming — the names that a listing's symbols get.

A collector calls its namer once for each symbol header that it accepts, and for nothing else, so
the names that it puts into effect are the answers of one run of the namer (`entered_eq`).  That run
goes on from the name that was generated at the start, whose count is zero, and generated names have
greater counts: the name in effect before the first label is none of those that come after it.
-/

namespace ByteEmbed.Listing

open Namer (Call Nameless KeepsApart)
open Collector (closed? after? linesOf accepted addLine runOn_addLine ofStep)

variable {σ : Type} [DigitSource σ]

/-! ## The names put into effect -/

/-- The calls that the symbol headers among some lines are for a namer. -/
def labelCalls (lines : List Line) : List Call :=
  (lines.filterMap Line.label?).map Call.label

namespace Collector

/-- The labels of the symbol headers that a collector accepts among some lines, refusals passed
over, each with the name that it puts into effect. -/
def entered (collector : Collector σ) : List Line → List (Call × String)
  | [] => []
  | line :: lines =>
    match line.label?, (addLine line).run collector with
    | some label, (.ok (), next) => (.label label, next.name.display) :: entered next lines
    | _, (_, next) => entered next lines

omit [DigitSource σ] in
/-- Closing a run names nothing. -/
theorem namer_of_closed? {collector collector' : Collector σ}
    (h : collector.closed? = .ok collector') : collector'.namer = collector.namer := by
  unfold closed? at h
  split at h
  · cases h
    rfl
  · split at h
    · cases h
      rfl
    · cases h

/-- A header that is accepted is entered when the run in front of it is closed. -/
theorem closed?_of_after?_header {collector collector' : Collector σ} {line : Line}
    (hheader : line.isHeader = true) (h : collector.after? line = .ok collector') :
    ∃ closed, collector.closed? = .ok closed ∧ collector' = enter closed line := by
  rw [after?_header hheader] at h
  cases hclosed : collector.closed? with
  | ok closed =>
      rw [hclosed] at h
      cases h
      exact ⟨closed, rfl, rfl⟩
  | error e =>
      rw [hclosed] at h
      cases h

/-- A symbol header that is accepted puts the answer of the namer into effect. -/
theorem named_of_after?_symbol {collector collector' : Collector σ} {label : String}
    (h : collector.after? (.symbolHeader label) = .ok collector') :
    (collector'.name, collector'.namer) = collector.namer.nameOf label := by
  obtain ⟨closed, hclosed, rfl⟩ := closed?_of_after?_header rfl h
  rw [← namer_of_closed? hclosed]
  rfl

/-- No other line that is accepted calls the namer. -/
theorem namer_of_after? {collector collector' : Collector σ} {line : Line}
    (hline : line.label? = none) (h : collector.after? line = .ok collector') :
    collector'.namer = collector.namer := by
  cases line with
  | sectionHeader name =>
      obtain ⟨closed, hclosed, rfl⟩ := closed?_of_after?_header rfl h
      show closed.namer = collector.namer
      exact namer_of_closed? hclosed
  | symbolHeader label => cases hline
  | byteRun digits =>
      cases h
      rfl
  | other =>
      cases h
      rfl

/-- The names put into effect are the answers of the collector's namer to the accepted labels. -/
theorem entered_eq (collector : Collector σ) (lines : List Line) :
    collector.entered lines
      = collector.namer.answers (labelCalls (collector.accepted lines)) := by
  induction lines generalizing collector with
  | nil => rfl
  | cons line lines ih =>
      have hstep : (addLine line).run collector = ofStep (collector.after? line) collector :=
        runOn_addLine line collector
      cases hline : collector.after? line with
      | error e =>
          rw [hline] at hstep
          rw [(afterEach_cons_error hstep lines).2, ← ih, entered, hstep]
          cases line.label? <;> rfl
      | ok collector' =>
          rw [hline] at hstep
          rw [(afterEach_cons_ok hstep lines).2, entered, hstep]
          cases hlabel : line.label? with
          | some label =>
              -- the header is answered by the namer, and the rest goes on with the namer after it
              obtain rfl : line = .symbolHeader label := by
                cases line <;> cases hlabel
                rfl
              have hnamed := named_of_after?_symbol hline
              have hcalls : labelCalls (.symbolHeader label :: collector'.accepted lines)
                  = .label label :: labelCalls (collector'.accepted lines) := rfl
              rw [hcalls, Namer.answers, Namer.answer, ← hnamed, ← ih]
              rfl
          | none =>
              have hcalls : labelCalls (line :: collector'.accepted lines)
                  = labelCalls (collector'.accepted lines) := by
                rw [labelCalls, List.filterMap_cons_none hlabel]
                rfl
              rw [hcalls, ← namer_of_after? hlabel hline, ← ih]
              rfl

theorem ofSource_eq (source : σ) :
    Collector.ofSource source
      = { namer := { source := (Namer.drawDigits source Namer.suffixLength).2, count := 0 }
          sectionName := defaultSection
          name :=
            { display := Namer.generatedText (Namer.drawDigits source Namer.suffixLength).1 0
              real := Namer.generatedText (Namer.drawDigits source Namer.suffixLength).1 0 }
          pending := ""
          symbols := #[] } :=
  rfl

end Collector

/-- **Generated names never collide.** Whatever digits a source gives, the names that one namer
generates are pairwise distinct as long as their count fits its word, and in a collector they are
none of them the name it begins with.  Two labels that are resolved in one run have the same name
exactly when neither name is generated and the labels have the same spelling, or when one of the two
is generated and the other label is an identifier spelled like it. -/
theorem names_kept_apart (source : σ) :
    (∀ calls, Namer.generations calls < UInt32.size →
      KeepsApart [] ((Namer.ofSource source).answers calls))
    ∧ ∀ lines,
      Namer.generations (labelCalls ((Collector.ofSource source).accepted lines)) < UInt32.size →
      KeepsApart [(Collector.ofSource source).name.display]
        ((Collector.ofSource source).entered lines) := by
  constructor
  · intro calls hroom
    refine Namer.answers_keepsApart ?_ List.nodup_nil (fun text htext => ?_)
    · rw [Namer.ofSource, UInt32.toNat_zero, Nat.zero_add]
      exact hroom
    · cases htext
  · intro lines hroom
    rw [Collector.entered_eq]
    generalize (Collector.ofSource source).accepted lines = accepted at hroom ⊢
    rw [Collector.ofSource_eq]
    refine Namer.answers_keepsApart ?_ (by simp) (fun text htext => ?_)
    · rw [UInt32.toNat_zero, Nat.zero_add]
      exact hroom
    · -- the name at the start carries the count zero
      exact ⟨_, 0, List.mem_singleton.mp htext, Namer.length_drawDigits _ _, Nat.le_refl _⟩

/-- Labels of every kind with a call for nothing between them, and a listing with two labels that
have no name of their own. -/
theorem names_kept_apart_mixed :
    Namer.generations [.label "a.b", .label "main", .anonymous, .label ".text"] < UInt32.size
    ∧ KeepsApart [] ((Namer.ofSource (Xoshiro.ofSeed 0)).answers
        [.label "a.b", .label "main", .anonymous, .label ".text"])
    ∧ Namer.generations (labelCalls ((Collector.ofSource (Xoshiro.ofSeed 0)).accepted
        (linesOf "<a.b>:\n\t90\n<$x>:\n"))) < UInt32.size
    ∧ ((Collector.ofSource (Xoshiro.ofSeed 0)).name.display
        :: Namer.generatedTexts ((Collector.ofSource (Xoshiro.ofSeed 0)).entered
          (linesOf "<a.b>:\n\t90\n<$x>:\n"))).Nodup := by
  have hcalls : Namer.generations [.label "a.b", .label "main", .anonymous, .label ".text"]
      < UInt32.size := by decide +kernel
  have hlabels : Namer.generations (labelCalls ((Collector.ofSource (Xoshiro.ofSeed 0)).accepted
      (linesOf "<a.b>:\n\t90\n<$x>:\n"))) < UInt32.size := by decide +kernel
  obtain ⟨hrun, hlisting⟩ := names_kept_apart (Xoshiro.ofSeed 0)
  exact ⟨hcalls, hrun _ hcalls, hlabels, (hlisting _ hlabels).distinct⟩

/-! ## The names of symbols -/

theorem nameAfter_of_no_label {headers : List Line} (h : headers.filterMap Line.label? = [])
    (source : σ) : (nameAfter source headers).1 = (Namer.ofSource source).placeholder.1 := by
  rw [nameAfter, h]
  rfl

/-- The name after some labels is what a namer answered to the last of them. -/
theorem nameAfter_of_label {headers : List Line} (h : headers.filterMap Line.label? ≠ [])
    (source : σ) :
    ∃ (namer : Namer σ) (label : String),
      (nameAfter source headers).1 = (namer.nameOf label).1 := by
  rcases List.eq_nil_or_concat (headers.filterMap Line.label?) with hnil | ⟨labels, label, hlast⟩
  · exact absurd hnil h
  · rw [nameAfter, hlast, List.concat_eq_append, List.foldl_concat]
    exact ⟨_, label, rfl⟩

/-- The name of a symbol is an identifier.  It is another one than the symbol's label exactly when
that label is no identifier, and before any label it is the label. -/
theorem IsSymbolOf.name_usable {source : σ} {group : Group} {symbol : Symbol}
    (h : IsSymbolOf source group symbol) :
    isIdentifier symbol.name = true
      ∧ (group.headers.filterMap Line.label? = [] → symbol.isRenamed = false)
      ∧ (group.headers.filterMap Line.label? ≠ [] →
        (symbol.isRenamed = true ↔ isIdentifier symbol.realName = false)) := by
  have hname := h.name_eq
  by_cases hlabels : group.headers.filterMap Line.label? = []
  · rw [nameAfter_of_no_label hlabels source] at hname
    have hdisplay : symbol.name = (Namer.ofSource source).draw.1 := congrArg Name.display hname
    have hreal : symbol.realName = (Namer.ofSource source).draw.1 := congrArg Name.real hname
    refine ⟨?_, fun _ => ?_, fun hne => absurd hlabels hne⟩
    · rw [hdisplay]
      exact Namer.isIdentifier_draw _
    · rw [Symbol.isRenamed, hdisplay, hreal, bne_self_eq_false]
  · obtain ⟨namer, label, hlabel⟩ := nameAfter_of_label hlabels source
    rw [hlabel] at hname
    have hdisplay : symbol.name = (namer.nameOf label).1.display := congrArg Name.display hname
    have hreal : symbol.realName = label :=
      (congrArg Name.real hname).trans (real_nameOf namer label)
    refine ⟨?_, fun hnil => absurd hnil hlabels, fun _ => ?_⟩
    · rw [hdisplay]
      exact Namer.isIdentifier_nameOf namer label
    · rw [Symbol.isRenamed, bne_iff_ne, ne_eq, hdisplay, hreal, Namer.nameOf_eq_label_iff,
        Bool.not_eq_true]

/-- **Names are usable, and renaming is told.** Every symbol of a listing is declared under an
identifier.  Behind a label it is renamed exactly when that label is no identifier, and before any
label it is never renamed.  A namer keeps a label as the real name; it draws digits, five of them,
and advances its count, by one, exactly for the labels that no name can be made of. -/
theorem names_usable (source : σ) :
    (∀ text records, symbolsOf source text = .ok records →
      List.Forall₂ (fun group record =>
          IsSymbolOf source group record
          ∧ isIdentifier record.name = true
          ∧ (group.headers.filterMap Line.label? = [] → record.isRenamed = false)
          ∧ (group.headers.filterMap Line.label? ≠ [] →
            (record.isRenamed = true ↔ isIdentifier record.realName = false)))
        ((groups (linesOf text)).filter (·.digits ≠ "")) records)
    ∧ ∀ (namer : Namer σ) (label : String), namer.count.toNat + 1 < UInt32.size →
      (namer.nameOf label).1.real = label
      ∧ (Nameless label →
        (namer.nameOf label).1.display
            = Namer.generatedText (Namer.drawDigits namer.source 5).1 (namer.count + 1)
          ∧ (namer.nameOf label).2.source = (Namer.drawDigits namer.source 5).2
          ∧ (namer.nameOf label).2.count.toNat = namer.count.toNat + 1)
      ∧ (¬ Nameless label →
        Namer.FixedName label (namer.nameOf label).1.display
          ∧ (namer.nameOf label).2 = namer) := by
  constructor
  · intro text records h
    refine (isSymbolOf_of_symbolsOf h).imp fun group record hsymbol => ?_
    exact ⟨hsymbol, hsymbol.name_usable⟩
  · intro namer label hroom
    refine ⟨real_nameOf namer label, fun hnameless => ?_, fun hfixed => ?_⟩
    · rw [Namer.nameOf_of_nameless hnameless, Namer.fresh_eq]
      exact ⟨rfl, rfl, Namer.toNat_succ hroom⟩
    · obtain ⟨text, htext⟩ := Namer.exists_fixedName_iff.mpr hfixed
      rw [Namer.nameOf_of_fixedName htext]
      exact ⟨htext, rfl⟩

/-- Bytes before any label, behind a label that no name can be made of, and behind a section's. -/
theorem names_usable_three_symbols :
    symbolsOf (Xoshiro.ofSeed 0) "\t90\n<a.b>:\n\tc3\n<.text>:\n\tcc\n"
        = .ok [ { sectionName := ".text", name := "unknown_777ef0", realName := "unknown_777ef0"
                  bytes := [0x90] },
                { sectionName := ".text", name := "unknown_976da1", realName := "a.b"
                  bytes := [0xc3] },
                { sectionName := ".text", name := "section_text", realName := ".text"
                  bytes := [0xcc] } ]
    ∧ isIdentifier "unknown_976da1" = true
    ∧ (Namer.ofSource (Xoshiro.ofSeed 0)).count.toNat + 1 < UInt32.size
    ∧ Nameless "a.b"
    ∧ ((Namer.ofSource (Xoshiro.ofSeed 0)).nameOf "a.b").2.count.toNat = 1 := by
  have hsymbols : symbolsOf (Xoshiro.ofSeed 0) "\t90\n<a.b>:\n\tc3\n<.text>:\n\tcc\n"
      = .ok [ { sectionName := ".text", name := "unknown_777ef0", realName := "unknown_777ef0"
                bytes := [0x90] },
              { sectionName := ".text", name := "unknown_976da1", realName := "a.b"
                bytes := [0xc3] },
              { sectionName := ".text", name := "section_text", realName := ".text"
                bytes := [0xcc] } ] := by decide +kernel
  have hroom : (Namer.ofSource (Xoshiro.ofSeed 0)).count.toNat + 1 < UInt32.size := by
    decide +kernel
  have hnameless : Nameless "a.b" := .plain (by decide) (by decide)
  obtain ⟨hlisting, hnamer⟩ := names_usable (Xoshiro.ofSeed 0)
  -- the second symbol of the three
  obtain ⟨_, _, -, hrest, -⟩ := List.forall₂_cons_right_iff.mp (hlisting _ _ hsymbols)
  obtain ⟨_, _, ⟨-, hname, -⟩, -⟩ := List.forall₂_cons_right_iff.mp hrest
  obtain ⟨-, hgenerated, -⟩ := hnamer _ "a.b" hroom
  exact ⟨hsymbols, hname, hroom, hnameless, (hgenerated hnameless).2.2⟩

end ByteEmbed.Listing
