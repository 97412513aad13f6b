import ByteEmbed.Proofs.Listing.Pieces

/-!
# ByteEmbed.Proofs.Listing.LineEnds — a listing with line ends of the other kind.

A label loses its last two characters and a section its last one, whatever these are, so a carriage
return that stayed at the end of a header would not be refused: it would stand in for the bracket or
the colon, and the names would be wrong.  None stays.  A listing whose line feeds all get a carriage
return has the same lines as before, and a collector sees nothing else of it: not only are the
symbols and their names the same, or the refusal, but also what the collection leaves behind
(`symbolsOf_withReturns`).
-/

namespace ByteEmbed.Listing

open Text (withReturns lines_withReturns)
open Collector (linesOf runOn_collect_congr)

variable {σ : Type} [DigitSource σ]

/-- A text without carriage returns has none in front of a line feed. -/
theorem not_infix_of_not_mem {text : List Char} (h : '\r' ∉ text) : ¬ ['\r', '\n'] <:+: text :=
  fun hmem => h (hmem.subset List.mem_cons_self)

theorem linesOf_withReturns {text : String} (h : '\r' ∉ text.toList) :
    linesOf (withReturns text) = linesOf text := by
  rw [linesOf, linesOf, lines_withReturns (not_infix_of_not_mem h)]

/-- **Line ends do not matter.** Let a text have no carriage return.  With one in front of every
line feed it has the same symbols, or is refused for the same reason, from every source of digits;
and collecting it from any collector leads to the same collector. -/
theorem symbolsOf_withReturns {text : String} (h : '\r' ∉ text.toList) :
    (∀ source : σ, symbolsOf source (withReturns text) = symbolsOf source text)
    ∧ ∀ collector : Collector σ,
        (Collector.collect (withReturns text)).run collector
          = (Collector.collect text).run collector := by
  have hrun : ∀ collector : Collector σ,
      (Collector.collect (withReturns text)).run collector
        = (Collector.collect text).run collector := by
    intro collector
    apply runOn_collect_congr
    rw [linesOf_withReturns h]
  refine ⟨fun source => ?_, hrun⟩
  exact congrArg Prod.fst (hrun (Collector.ofSource source))

/-- Headers at the ends of their lines, a label without a name of its own, a last line that is not
ended, and a run that is refused. -/
theorem symbolsOf_withReturns_two_sections :
    '\r' ∉ "<a.b>:\n\t90\nDisassembly of section .data:\n\n<f>:\n\tc3 9\n\t0".toList
    ∧ withReturns "<a.b>:\n\t90\nDisassembly of section .data:\n\n<f>:\n\tc3 9\n\t0"
      = "<a.b>:\r\n\t90\r\nDisassembly of section .data:\r\n\r\n<f>:\r\n\tc3 9\r\n\t0"
    ∧ symbolsOf (Xoshiro.ofSeed 0)
        "<a.b>:\r\n\t90\r\nDisassembly of section .data:\r\n\r\n<f>:\r\n\tc3 9\r\n\t0"
      = .ok [ { sectionName := ".text", name := "unknown_976da1", realName := "a.b"
                bytes := [0x90] },
              { sectionName := ".data", name := "f", realName := "f", bytes := [0xc3, 0x90] } ]
    ∧ '\r' ∉ "<f>:\n\t9\n<g>:\n".toList
    ∧ symbolsOf (Xoshiro.ofSeed 0) (withReturns "<f>:\n\t9\n<g>:\n")
      = .error { symbol := "f", sectionName := ".text", length := 1 } := by
  have hmem : '\r' ∉ "<a.b>:\n\t90\nDisassembly of section .data:\n\n<f>:\n\tc3 9\n\t0".toList := by
    decide +kernel
  have htext : withReturns "<a.b>:\n\t90\nDisassembly of section .data:\n\n<f>:\n\tc3 9\n\t0"
      = "<a.b>:\r\n\t90\r\nDisassembly of section .data:\r\n\r\n<f>:\r\n\tc3 9\r\n\t0" := by
    decide +kernel
  have hmem' : '\r' ∉ "<f>:\n\t9\n<g>:\n".toList := by decide
  refine ⟨hmem, htext, ?_, hmem', ?_⟩
  · rw [← htext, (symbolsOf_withReturns hmem).1 (Xoshiro.ofSeed 0)]
    decide +kernel
  · rw [(symbolsOf_withReturns hmem').1 (Xoshiro.ofSeed 0)]
    decide +kernel

end ByteEmbed.Listing
