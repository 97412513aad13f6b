import Mathlib.Algebra.GroupWithZero.Nat
import Mathlib.Data.List.Induction
import ByteEmbed.Proofs.Listing.FirstRefusal
import ByteEmbed.SectionTotal

/-!
# ByteEmbed.Proofs.SectionTotal — section totals conserve a listing.

The totals are kept by counting one symbol after the other, at the entry of its section or in a new
entry behind the others.  What comes out is told here without the counting: an entry for each
section, in the order in which sections first appear, with what `totalOf` says of all symbols at
once (`ofSymbols_eq`).  Counting a symbol changes the total of its section by one symbol and by its
bytes, and no other; a section that comes back after others is found where it was entered first.
Nothing is counted twice and nothing is left out, so the totals add up to all symbols and all bytes,
and these are half as many as the digits on the byte lines of the listing (`ofSymbols_conserves`).
-/

namespace ByteEmbed.SectionTotal

open Listing (symbolsOf digitsOf spells_digitsOf)
open Listing.Collector (linesOf)

/-! ## Sections and their totals, without counting -/

/-- The sections of symbols, each where it first appears. -/
def sections (symbols : List Symbol) : List String := (symbols.map (·.sectionName)).eraseDups

/-- The symbols of one section. -/
def symbolsIn (name : String) (symbols : List Symbol) : List Symbol :=
  symbols.filter (·.sectionName = name)

/-- The number of bytes that symbols have together. -/
def byteCount (symbols : List Symbol) : Nat := (symbols.map (·.bytes.length)).sum

/-- The total of a section among symbols. -/
def totalOf (symbols : List Symbol) (name : String) : SectionTotal :=
  { sectionName := name
    symbols := (symbolsIn name symbols).length
    bytes := byteCount (symbolsIn name symbols) }

@[simp]
theorem sectionName_totalOf (symbols : List Symbol) (name : String) :
    (totalOf symbols name).sectionName = name := rfl

theorem mem_sections {name : String} {symbols : List Symbol} :
    name ∈ sections symbols ↔ ∃ symbol ∈ symbols, symbol.sectionName = name := by
  rw [sections, List.mem_eraseDups, List.mem_map]

/-! ### One more symbol -/

theorem byteCount_snoc (symbols : List Symbol) (symbol : Symbol) :
    byteCount (symbols ++ [symbol]) = byteCount symbols + symbol.bytes.length := by
  simp [byteCount]

/-- The total of its section grows by one symbol and its bytes. -/
theorem totalOf_snoc_self (symbols : List Symbol) (symbol : Symbol) :
    totalOf (symbols ++ [symbol]) symbol.sectionName
      = { totalOf symbols symbol.sectionName with
          symbols := (totalOf symbols symbol.sectionName).symbols + 1
          bytes := (totalOf symbols symbol.sectionName).bytes + symbol.bytes.length } := by
  have hin : symbolsIn symbol.sectionName (symbols ++ [symbol])
      = symbolsIn symbol.sectionName symbols ++ [symbol] := by
    simp [symbolsIn]
  rw [totalOf, hin, byteCount_snoc, List.length_append, List.length_singleton]
  rfl

/-- The total of another section stays. -/
theorem totalOf_snoc_of_ne {name : String} {symbol : Symbol} (h : symbol.sectionName ≠ name)
    (symbols : List Symbol) : totalOf (symbols ++ [symbol]) name = totalOf symbols name := by
  have hin : symbolsIn name (symbols ++ [symbol]) = symbolsIn name symbols := by
    simp [symbolsIn, h]
  rw [totalOf, hin]
  rfl

/-- A section is put behind the others when it first appears. -/
theorem sections_snoc (symbols : List Symbol) (symbol : Symbol) :
    sections (symbols ++ [symbol])
      = if symbol.sectionName ∈ sections symbols then sections symbols
        else sections symbols ++ [symbol.sectionName] := by
  have hmem : symbol.sectionName ∈ sections symbols
      ↔ symbol.sectionName ∈ symbols.map (·.sectionName) := List.mem_eraseDups
  rw [sections, List.map_append, List.map_singleton, List.eraseDups_append, List.removeAll]
  by_cases h : symbol.sectionName ∈ sections symbols
  · have hseen := hmem.mp h
    rw [if_pos h, List.filter_cons_of_neg (by simpa using hseen), List.filter_nil]
    exact List.append_nil _
  · have hnew := hmem.not.mp h
    rw [if_neg h, List.filter_cons_of_pos (by simpa using hnew), List.filter_nil]
    rfl

/-! ### Order -/

/-- Sections stand in the order in which they first appear. -/
theorem pairwise_sections (symbols : List Symbol) :
    (sections symbols).Pairwise fun name next =>
      (symbols.map (·.sectionName)).idxOf name < (symbols.map (·.sectionName)).idxOf next := by
  induction symbols using List.reverseRecOn with
  | nil => exact .nil
  | append_singleton symbols symbol ih =>
      have hseen : ∀ name ∈ sections symbols, name ∈ symbols.map (·.sectionName) :=
        fun name => List.mem_eraseDups.mp
      -- where a section first appears is not changed by what comes later
      have hkept : (sections symbols).Pairwise fun name next =>
          ((symbols ++ [symbol]).map (·.sectionName)).idxOf name
            < ((symbols ++ [symbol]).map (·.sectionName)).idxOf next := by
        refine ih.imp_of_mem fun hname hnext hlt => ?_
        rwa [List.map_append, List.idxOf_append_of_mem (hseen _ hname),
          List.idxOf_append_of_mem (hseen _ hnext)]
      rw [sections_snoc]
      split
      · exact hkept
      · rename_i hnew
        refine List.pairwise_append.mpr ⟨hkept, List.pairwise_singleton _ _, ?_⟩
        intro name hname last hlast
        obtain rfl := List.mem_singleton.mp hlast
        have hunseen : symbol.sectionName ∉ symbols.map (·.sectionName) :=
          fun hmem => hnew (List.mem_eraseDups.mpr hmem)
        rw [List.map_append, List.idxOf_append_of_mem (hseen _ hname),
          List.idxOf_append_of_notMem hunseen]
        exact Nat.lt_add_right _ (List.idxOf_lt_length_iff.mpr (hseen _ hname))

theorem nodup_sections (symbols : List Symbol) : (sections symbols).Nodup := by
  refine (pairwise_sections symbols).imp fun hlt => ?_
  rintro rfl
  exact Nat.lt_irrefl _ hlt

/-! ## Counting -/

/-- A symbol of a section that has an entry. -/
theorem add_map_of_mem {names : List String} (hnodup : names.Nodup) (symbols : List Symbol)
    {symbol : Symbol} (hmem : symbol.sectionName ∈ names) :
    add symbol (names.map (totalOf symbols)) = names.map (totalOf (symbols ++ [symbol])) := by
  induction names with
  | nil => cases hmem
  | cons name names ih =>
      obtain ⟨hfirst, hrest⟩ := List.nodup_cons.mp hnodup
      rw [List.map_cons, List.map_cons, add]
      by_cases hname : name = symbol.sectionName
      · -- no other entry is of this section
        subst hname
        have hothers : names.map (totalOf symbols) = names.map (totalOf (symbols ++ [symbol])) := by
          rw [List.map_inj_left]
          intro name hname
          refine (totalOf_snoc_of_ne ?_ symbols).symm
          rintro rfl
          exact hfirst hname
        rw [if_pos (sectionName_totalOf _ _), totalOf_snoc_self, hothers]
      · have hlater := (List.mem_cons.mp hmem).resolve_left (Ne.symm hname)
        rw [sectionName_totalOf, if_neg hname, totalOf_snoc_of_ne (Ne.symm hname), ih hrest hlater]

/-- A symbol of a section that has no entry: it is the first one of its section. -/
theorem add_map_of_notMem {names : List String} {symbols : List Symbol} {symbol : Symbol}
    (hnew : symbol.sectionName ∉ names) (hfirst : symbolsIn symbol.sectionName symbols = []) :
    add symbol (names.map (totalOf symbols))
      = (names ++ [symbol.sectionName]).map (totalOf (symbols ++ [symbol])) := by
  induction names with
  | nil =>
      have hnone : totalOf symbols symbol.sectionName = ⟨symbol.sectionName, 0, 0⟩ := by
        rw [totalOf, hfirst]
        rfl
      rw [List.map_nil, List.nil_append, List.map_singleton, totalOf_snoc_self, hnone, add,
        Nat.zero_add, Nat.zero_add]
  | cons name names ih =>
      rw [List.mem_cons, not_or] at hnew
      rw [List.map_cons, List.cons_append, List.map_cons, add, sectionName_totalOf,
        if_neg (Ne.symm hnew.1), totalOf_snoc_of_ne hnew.1, ih hnew.2]

theorem ofSymbols_snoc (symbols : List Symbol) (symbol : Symbol) :
    ofSymbols (symbols ++ [symbol]) = add symbol (ofSymbols symbols) := by
  rw [ofSymbols, List.foldl_concat]
  rfl

/-- Counting gives the totals of the sections. -/
theorem ofSymbols_eq (symbols : List Symbol) :
    ofSymbols symbols = (sections symbols).map (totalOf symbols) := by
  induction symbols using List.reverseRecOn with
  | nil => rfl
  | append_singleton symbols symbol ih =>
      rw [ofSymbols_snoc, ih, sections_snoc]
      split
      · rename_i hmem
        exact add_map_of_mem (nodup_sections symbols) symbols hmem
      · rename_i hnew
        refine add_map_of_notMem hnew ?_
        rw [symbolsIn, List.filter_eq_nil_iff]
        intro earlier hearlier heq
        exact hnew (mem_sections.mpr ⟨earlier, hearlier, of_decide_eq_true heq⟩)

/-! ## Sums -/

/-- Counting a symbol adds once what it adds to the entry of its section. -/
theorem sum_map_add {amount : SectionTotal → Nat} {symbol : Symbol} (more : Nat)
    (hnew : amount ⟨symbol.sectionName, 1, symbol.bytes.length⟩ = more)
    (hold : ∀ total : SectionTotal,
      amount { total with
        symbols := total.symbols + 1
        bytes := total.bytes + symbol.bytes.length } = amount total + more)
    (totals : List SectionTotal) :
    ((add symbol totals).map amount).sum = (totals.map amount).sum + more := by
  induction totals with
  | nil => simp [add, hnew]
  | cons total totals ih =>
      rw [add]
      split
      · rw [List.map_cons, List.sum_cons, List.map_cons, List.sum_cons, hold]
        omega
      · rw [List.map_cons, List.sum_cons, List.map_cons, List.sum_cons, ih, Nat.add_assoc]

theorem sum_symbols_ofSymbols (symbols : List Symbol) :
    ((ofSymbols symbols).map (·.symbols)).sum = symbols.length := by
  induction symbols using List.reverseRecOn with
  | nil => rfl
  | append_singleton symbols symbol ih =>
      rw [ofSymbols_snoc, sum_map_add 1 rfl fun _ => rfl, ih, List.length_append,
        List.length_singleton]

theorem sum_bytes_ofSymbols (symbols : List Symbol) :
    ((ofSymbols symbols).map (·.bytes)).sum = byteCount symbols := by
  induction symbols using List.reverseRecOn with
  | nil => rfl
  | append_singleton symbols symbol ih =>
      rw [ofSymbols_snoc, sum_map_add symbol.bytes.length rfl fun _ => rfl, ih,
        byteCount_snoc]

/-! ## Listings -/

theorem byteCount_eq (symbols : List Symbol) :
    byteCount symbols = (symbols.flatMap Symbol.bytes).length := by
  rw [byteCount, List.length_flatMap]

/-- A listing that is accepted has two digits on its byte lines for each byte of its symbols. -/
theorem countP_digitsOf {σ : Type} [DigitSource σ] {source : σ} {text : String}
    {symbols : List Symbol} (h : symbolsOf source text = .ok symbols) :
    (digitsOf (linesOf text)).toList.countP Digit.isHex = 2 * byteCount symbols := by
  have hspells := spells_digitsOf h
  have hall : (digitsOf (linesOf text)).toList.countP Digit.isHex
      = (digitsOf (linesOf text)).toList.length := List.countP_eq_length.mpr hspells.isDigit
  rw [hall, hspells.length_eq, byteCount_eq]

/-- **Totals conserve the listing.** Of any symbols there is one total for each section, in the
order in which sections first appear, with the number of its symbols and of their bytes.  The totals
add up to all symbols and to all bytes, and twice the bytes are the hexadecimal digits on the byte
lines of every listing that the symbols are collected from. -/
theorem ofSymbols_conserves {σ : Type} [DigitSource σ] (symbols : List Symbol) :
    ofSymbols symbols = (sections symbols).map (totalOf symbols)
    ∧ (sections symbols).Nodup
    ∧ (∀ name, name ∈ sections symbols ↔ ∃ symbol ∈ symbols, symbol.sectionName = name)
    ∧ (sections symbols).Pairwise (fun name next =>
        (symbols.map (·.sectionName)).idxOf name < (symbols.map (·.sectionName)).idxOf next)
    ∧ ((ofSymbols symbols).map (·.symbols)).sum = symbols.length
    ∧ ((ofSymbols symbols).map (·.bytes)).sum = (symbols.flatMap Symbol.bytes).length
    ∧ ∀ (source : σ) (text : String), symbolsOf source text = .ok symbols →
        2 * ((ofSymbols symbols).map (·.bytes)).sum
          = (digitsOf (linesOf text)).toList.countP Digit.isHex := by
  refine ⟨ofSymbols_eq symbols, nodup_sections symbols, fun name => mem_sections,
    pairwise_sections symbols, sum_symbols_ofSymbols symbols, ?_, fun source text h => ?_⟩
  · rw [sum_bytes_ofSymbols, byteCount_eq]
  · rw [sum_bytes_ofSymbols, countP_digitsOf h]

/-- A section that comes back after another one. -/
theorem ofSymbols_conserves_three_symbols :
    symbolsOf (Xoshiro.ofSeed 0)
        "<f>:\n\t90 90\nDisassembly of section .b:\n\t4\n\t1\nDisassembly of section .text:\n\tC3"
      = .ok [ { sectionName := ".text", name := "f", realName := "f", bytes := [0x90, 0x90] },
              { sectionName := ".b", name := "f", realName := "f", bytes := [0x41] },
              { sectionName := ".text", name := "f", realName := "f", bytes := [0xc3] } ]
    ∧ ofSymbols
        [ { sectionName := ".text", name := "f", realName := "f", bytes := [0x90, 0x90] },
          { sectionName := ".b", name := "f", realName := "f", bytes := [0x41] },
          { sectionName := ".text", name := "f", realName := "f", bytes := [0xc3] } ]
      = [⟨".text", 2, 3⟩, ⟨".b", 1, 1⟩]
    ∧ 2 * 4
      = (digitsOf (linesOf
          "<f>:\n\t90 90\nDisassembly of section .b:\n\t4\n\t1\nDisassembly of section .text:\n\tC3"
          )).toList.countP Digit.isHex := by
  have hsymbols : symbolsOf (Xoshiro.ofSeed 0)
        "<f>:\n\t90 90\nDisassembly of section .b:\n\t4\n\t1\nDisassembly of section .text:\n\tC3"
      = .ok [ { sectionName := ".text", name := "f", realName := "f", bytes := [0x90, 0x90] },
              { sectionName := ".b", name := "f", realName := "f", bytes := [0x41] },
              { sectionName := ".text", name := "f", realName := "f", bytes := [0xc3] } ] := by
    decide +kernel
  obtain ⟨-, -, -, -, -, -, hlisting⟩ := ofSymbols_conserves (σ := Xoshiro)
    [ { sectionName := ".text", name := "f", realName := "f", bytes := [0x90, 0x90] },
      { sectionName := ".b", name := "f", realName := "f", bytes := [0x41] },
      { sectionName := ".text", name := "f", realName := "f", bytes := [0xc3] } ]
  exact ⟨hsymbols, by decide, hlisting _ _ hsymbols⟩

end ByteEmbed.SectionTotal
