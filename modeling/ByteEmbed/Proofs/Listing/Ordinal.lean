import ByteEmbed.Proofs.Listing.Naming

/-!
# ByteEmbed.Proofs.Listing.Ordinal — generated names go by the source and their ordinal.

Only a name that is generated takes digits from a source, and it takes as many as any other.  So a
namer that has generated `k` names is at one place in its source, `namerAt source k`, whatever it
was asked for besides, and the next name that it generates can be told without the run that led
there: `ordinalText source (k + 1)`.  A collector calls its namer for the labels that it enters and
for nothing else, so the same holds of the names of a listing: two listings that are read from one
source generate the same names in the same order, as far as both go (`names_by_ordinal`).
-/

namespace ByteEmbed

namespace Namer

variable {σ : Type} [DigitSource σ]

/-! ## Places in a source -/

/-- A source from which the digits of `k` names have been drawn. -/
def sourceAfter (source : σ) : Nat → σ
  | 0 => source
  | k + 1 => (drawDigits (sourceAfter source k) suffixLength).2

/-- The text of the `k`-th name that is generated from a source, when the name in effect before any
label is the one with number zero. -/
def ordinalText (source : σ) (k : Nat) : String :=
  generatedText (drawDigits (sourceAfter source k) suffixLength).1 (UInt32.ofNat k)

/-- The namer that has generated `k` names behind the name in effect before any label. -/
def namerAt (source : σ) (k : Nat) : Namer σ :=
  { source := sourceAfter source (k + 1), count := UInt32.ofNat k }

theorem placeholder_ofSource (source : σ) :
    (ofSource source).placeholder
      = (⟨ordinalText source 0, ordinalText source 0⟩, namerAt source 0) :=
  rfl

theorem fresh_namerAt (source : σ) (k : Nat) :
    (namerAt source k).fresh = (ordinalText source (k + 1), namerAt source (k + 1)) := by
  have hcount : UInt32.ofNat k + 1 = UInt32.ofNat (k + 1) := (UInt32.ofNat_add k 1).symm
  rw [fresh_eq]
  show (generatedText _ (UInt32.ofNat k + 1), (⟨_, UInt32.ofNat k + 1⟩ : Namer σ)) = _
  rw [hcount]
  rfl

/-! ## Runs of a namer -/

/-- A call that is answered by a generated name is answered like a call for nothing. -/
theorem answer_of_generated {call : Call} (h : call.isGenerated = true) (namer : Namer σ) :
    namer.answer call = namer.fresh := by
  cases call with
  | label label => rw [answer, nameOf_of_nameless (isGenerated_label_iff.mp h)]
  | anonymous => rfl

/-- Every other call leaves the namer as it was. -/
theorem snd_answer_of_fixed {call : Call} (h : call.isGenerated = false) (namer : Namer σ) :
    (namer.answer call).2 = namer := by
  rcases answer_cases namer call with ⟨label, text, -, -, hanswer⟩ | ⟨hcall, -⟩
  · rw [hanswer]
  · rw [h] at hcall
    cases hcall

/-- The namer that has answered some calls. -/
def resume (namer : Namer σ) (calls : List Call) : Namer σ :=
  calls.foldl (fun namer call => (namer.answer call).2) namer

theorem resume_append (namer : Namer σ) (calls calls' : List Call) :
    namer.resume (calls ++ calls') = (namer.resume calls).resume calls' :=
  List.foldl_append

theorem generations_cons_of_generated {call : Call} (h : call.isGenerated = true)
    (calls : List Call) : generations (call :: calls) = generations calls + 1 :=
  List.countP_cons_of_pos h

/-- Whatever a namer is asked for, the names that it generates are those of the ordinals that come
next, and it is left at the place behind the last of them. -/
theorem generatedTexts_answers (source : σ) (k : Nat) (calls : List Call) :
    generatedTexts ((namerAt source k).answers calls)
        = (List.range' (k + 1) (generations calls)).map (ordinalText source)
      ∧ (namerAt source k).resume calls = namerAt source (k + generations calls) := by
  induction calls generalizing k with
  | nil => exact ⟨rfl, rfl⟩
  | cons call calls ih =>
      rw [answers, resume, List.foldl_cons]
      cases hcall : call.isGenerated with
      | true =>
          obtain ⟨htexts, hresume⟩ := ih (k + 1)
          rw [generatedTexts_cons_of_generated hcall, answer_of_generated hcall, fresh_namerAt,
            generations_cons_of_generated hcall, List.range'_succ, List.map_cons, htexts]
          refine ⟨rfl, ?_⟩
          rw [← resume, hresume, Nat.add_assoc, Nat.add_comm 1]
      | false =>
          rw [generatedTexts_cons_of_fixed hcall, snd_answer_of_fixed hcall,
            generations_cons_of_fixed hcall]
          exact ih k

end Namer

namespace Listing

open Namer (ordinalText namerAt generatedTexts generations)
open Collector (linesOf addLine after? ofStep runOn_addLine)

variable {σ : Type} [DigitSource σ]

/-! ## Runs of a collector -/

namespace Collector

/-- The names that a collector generates over some lines, refusals passed over, in order. -/
def generated (collector : Collector σ) (lines : List Line) : List String :=
  generatedTexts (collector.entered lines)

theorem labelCalls_cons (line : Line) (lines : List Line) :
    labelCalls (line :: lines) = labelCalls [line] ++ labelCalls lines := by
  rw [labelCalls, labelCalls, labelCalls, ← List.map_append, ← List.filterMap_append]
  rfl

/-- A line that is accepted calls the namer for the label that it holds, if it holds one. -/
theorem namer_of_accepted {collector next : Collector σ} {line : Line}
    (h : collector.after? line = .ok next) :
    next.namer = collector.namer.resume (labelCalls [line]) := by
  cases hlabel : line.label? with
  | some label =>
      obtain rfl : line = .symbolHeader label := by
        cases line <;> cases hlabel
        rfl
      exact congrArg Prod.snd (named_of_after?_symbol h)
  | none =>
      rw [namer_of_after? hlabel h, labelCalls, List.filterMap_cons_none hlabel]
      rfl

/-- Nothing but the labels that are accepted moves the namer of a collector on. -/
theorem namer_afterEach (collector : Collector σ) (lines : List Line) :
    (collector.afterEach lines).namer
      = collector.namer.resume (labelCalls (collector.accepted lines)) := by
  induction lines generalizing collector with
  | nil => rfl
  | cons line lines ih =>
      have hstep : (addLine line).run collector = ofStep (collector.after? line) collector :=
        runOn_addLine line collector
      cases hline : collector.after? line with
      | error e =>
          rw [hline] at hstep
          obtain ⟨hafter, haccepted⟩ := afterEach_cons_error hstep lines
          rw [hafter, haccepted]
          exact ih collector
      | ok next =>
          rw [hline] at hstep
          obtain ⟨hafter, haccepted⟩ := afterEach_cons_ok hstep lines
          rw [hafter, haccepted, ih next, labelCalls_cons, Namer.resume_append,
            ← namer_of_accepted hline]

theorem namer_ofSource (source : σ) : (ofSource source).namer = namerAt source 0 :=
  congrArg Prod.snd (Namer.placeholder_ofSource source)

/-- The names that a new collector generates, and the place at which they leave its namer. -/
theorem generated_ofSource (source : σ) (lines : List Line) :
    (ofSource source).generated lines
        = (List.range' 1 ((ofSource source).generated lines).length).map (ordinalText source)
      ∧ ((ofSource source).afterEach lines).namer
        = namerAt source ((ofSource source).generated lines).length := by
  have hnamer := namer_ofSource source
  obtain ⟨htexts, hresume⟩ := Namer.generatedTexts_answers source 0
    (labelCalls ((ofSource source).accepted lines))
  have hgenerated : (ofSource source).generated lines
      = (List.range' 1 (generations (labelCalls ((ofSource source).accepted lines)))).map
        (ordinalText source) := by
    rw [generated, entered_eq, hnamer, htexts]
  have hlength : ((ofSource source).generated lines).length
      = generations (labelCalls ((ofSource source).accepted lines)) := by
    rw [hgenerated, List.length_map, List.length_range']
  rw [hlength]
  refine ⟨hgenerated, ?_⟩
  rw [namer_afterEach, hnamer, hresume, Nat.zero_add]

/-- The name that a new collector generates behind `k` others. -/
theorem getElem?_generated (source : σ) {lines : List Line} {k : Nat}
    (h : k < ((ofSource source).generated lines).length) :
    ((ofSource source).generated lines)[k]? = some (ordinalText source (k + 1)) := by
  rw [(generated_ofSource source lines).1, List.getElem?_map, List.getElem?_range' h]
  simp [Nat.add_comm]

end Collector

/-- **Generated names go by the source and their ordinal.** The name in effect at the start is the
one with number zero.  Whatever lines are fed to a new collector, refusals passed over, its count is
the number of names that it has generated, and the `k`-th of them is `ordinalText source k`.  So two
collectors that start from one source generate the same names in the same order, whatever is fed to
the one and to the other, as far as both go. -/
theorem names_by_ordinal (source : σ) :
    (Collector.ofSource source).name = ⟨ordinalText source 0, ordinalText source 0⟩
    ∧ (∀ lines,
      ((Collector.ofSource source).afterEach lines).namer.count
          = UInt32.ofNat ((Collector.ofSource source).generated lines).length
        ∧ ∀ k < ((Collector.ofSource source).generated lines).length,
          ((Collector.ofSource source).generated lines)[k]? = some (ordinalText source (k + 1)))
    ∧ ∀ lines lines' k,
      k < ((Collector.ofSource source).generated lines).length →
      k < ((Collector.ofSource source).generated lines').length →
      ((Collector.ofSource source).generated lines)[k]?
        = ((Collector.ofSource source).generated lines')[k]? := by
  refine ⟨congrArg Prod.fst (Namer.placeholder_ofSource source), ?_, ?_⟩
  · intro lines
    refine ⟨?_, fun k hk => Collector.getElem?_generated source hk⟩
    rw [(Collector.generated_ofSource source lines).2]
    rfl
  · intro lines lines' k hk hk'
    rw [Collector.getElem?_generated source hk, Collector.getElem?_generated source hk']

/-- Two listings that agree in nothing but the number of labels that no name can be made of: in the
second one the first such label is refused, for the odd digit in front of it, and does not count. -/
theorem names_by_ordinal_two_listings :
    1 < ((Collector.ofSource (Xoshiro.ofSeed 0)).generated
      (linesOf "<a.b>:\n\t90\n<$x>:\n")).length
    ∧ 1 < ((Collector.ofSource (Xoshiro.ofSeed 0)).generated
      (linesOf "\t9\n<x y>:\n\t0\nDisassembly of section .data:\n<f>:\n<1x>:\n\n<.e+f>:\n")).length
    ∧ ((Collector.ofSource (Xoshiro.ofSeed 0)).generated (linesOf "<a.b>:\n\t90\n<$x>:\n"))[1]?
      = ((Collector.ofSource (Xoshiro.ofSeed 0)).generated
        (linesOf
          "\t9\n<x y>:\n\t0\nDisassembly of section .data:\n<f>:\n<1x>:\n\n<.e+f>:\n"))[1]? := by
  have hfirst : 1 < ((Collector.ofSource (Xoshiro.ofSeed 0)).generated
      (linesOf "<a.b>:\n\t90\n<$x>:\n")).length := by decide +kernel
  have hsecond : 1 < ((Collector.ofSource (Xoshiro.ofSeed 0)).generated
      (linesOf
        "\t9\n<x y>:\n\t0\nDisassembly of section .data:\n<f>:\n<1x>:\n\n<.e+f>:\n")).length := by
    decide +kernel
  obtain ⟨-, -, hagree⟩ := names_by_ordinal (Xoshiro.ofSeed 0)
  exact ⟨hfirst, hsecond, hagree _ _ 1 hfirst hsecond⟩

end Listing

end ByteEmbed
