import ByteEmbed.Proofs.Listing.Printed

/-!
# ByteEmbed.Proofs.Listing.SectionName — which sections are recovered from their headers.

A header names its section behind words, and nothing marks where the words end and the name begins.
The reader takes the first character that is neither a letter nor a space for the start of the name
if it is a dot.  That is right for every name that starts with a dot, whatever comes after it, and
for no other: the words swallow what a name has in front of its first dot, and a name whose leading
letters and spaces are not ended by a dot is given up, and the whole header taken for it
(`ToldAs`).  So sections that start with a dot are kept apart, and others need not be
(`sectionLine_told`, `undotted_sections_confused`).
-/

namespace ByteEmbed.Listing

open Line (isWordChar sectionWord sectionOf withoutColon ofString ofChars_section ofChars_words)

/-- The words that stand before the name in the header of a section. -/
def headerWords : String := "Disassembly of section "

theorem sectionLine_eq (name : String) : sectionLine name = headerWords ++ name ++ ":" :=
  rfl

/-- `text` is the section that the header of the section `name` is told to name: what stands in
`name` from the dot on that ends its leading letters and spaces, or, if no dot ends them, the words
of the header and the name, behind a dot. -/
inductive ToldAs : String → String → Prop
  | dotted {words name : List Char} (hwords : ∀ c ∈ words, isWordChar c = true) :
      ToldAs (String.ofList (words ++ '.' :: name)) (String.ofList ('.' :: name))
  | undotted {name : String} (nodot : (name.toList.dropWhile isWordChar).head? ≠ some '.') :
      ToldAs name ("." ++ headerWords ++ name)

/-- Something is told of every name: a dot ends its leading letters and spaces, or none does. -/
theorem exists_toldAs (name : String) : ∃ text, ToldAs name text := by
  by_cases hdot : (name.toList.dropWhile isWordChar).head? = some '.'
  · obtain ⟨rest, hrest⟩ := List.head?_eq_some_iff.mp hdot
    have hname : name
        = String.ofList (name.toList.takeWhile isWordChar ++ '.' :: rest) := by
      rw [← hrest, List.takeWhile_append_dropWhile, String.ofList_toList]
    refine ⟨String.ofList ('.' :: rest), ?_⟩
    rw [hname]
    exact .dotted fun c hc => List.mem_takeWhile_imp hc
  · exact ⟨_, .undotted hdot⟩

/-- Whatever the name is, what is told starts with a dot. -/
theorem ToldAs.head?_text {name text : String} (h : ToldAs name text) :
    text.toList.head? = some '.' := by
  cases h with
  | dotted hwords => rw [String.toList_ofList, List.head?_cons]
  | undotted nodot =>
      rw [String.toList_append, String.toList_append]
      rfl

/-! ## Headers -/

theorem sectionWord_prefix_headerWords : sectionWord <+: headerWords.toList := by decide

theorem isWordChar_of_mem_headerWords {c : Char} (h : c ∈ headerWords.toList) :
    isWordChar c = true := by
  have hall : headerWords.toList.all isWordChar = true := by decide
  exact List.all_eq_true.mp hall c h

theorem toList_sectionLine (name : String) :
    (sectionLine name).toList = headerWords.toList ++ name.toList ++ [':'] := by
  rw [sectionLine_eq, toList_closed]

/-- A header in which no dot ends the leading words is taken for the section as a whole. -/
theorem sectionOf_undotted {words name : List Char} (hwords : ∀ c ∈ words, isWordChar c = true)
    (hdot : (name.dropWhile isWordChar).head? ≠ some '.') :
    sectionOf (words ++ name ++ [':']) = '.' :: (words ++ name) := by
  have hbody : withoutColon (words ++ name ++ [':']) = words ++ name := by
    rw [withoutColon, List.getLast?_concat, if_pos rfl, List.dropLast_concat]
  rw [sectionOf, hbody, List.dropWhile_append_of_pos hwords]
  split
  · rename_i rest hrest
    rw [hrest] at hdot
    exact absurd rfl hdot
  · rfl

theorem ofString_of_toldAs {name text : String} (h : ToldAs name text) :
    ofString (sectionLine name) = .sectionHeader text := by
  rw [ofString, toList_sectionLine]
  cases h with
  | @dotted words rest hwords =>
      -- the words of the name go on those of the header
      have hall : ∀ c ∈ headerWords.toList ++ words, isWordChar c = true := by
        intro c hc
        rcases List.mem_append.mp hc with hc | hc
        · exact isWordChar_of_mem_headerWords hc
        · exact hwords c hc
      have hword : sectionWord <+: headerWords.toList ++ words :=
        sectionWord_prefix_headerWords.trans (List.prefix_append _ _)
      rw [String.toList_ofList, ← List.append_assoc]
      exact ofChars_words hword hall rfl
  | undotted nodot =>
      have hword : sectionWord <+: headerWords.toList ++ name.toList ++ [':'] := by
        rw [List.append_assoc]
        exact sectionWord_prefix_headerWords.trans (List.prefix_append _ _)
      rw [ofChars_section hword,
        sectionOf_undotted (fun c hc => isWordChar_of_mem_headerWords hc) nodot]
      congr 1
      rw [← String.toList_inj]
      simp

/-- A header is told to name one section, the one that `ToldAs` gives. -/
theorem ofString_sectionLine_iff {name text : String} :
    ofString (sectionLine name) = .sectionHeader text ↔ ToldAs name text := by
  constructor
  · intro h
    obtain ⟨text', htold⟩ := exists_toldAs name
    rw [ofString_of_toldAs htold, Line.sectionHeader.injEq] at h
    rwa [← h]
  · exact ofString_of_toldAs

/-- **Which sections are recovered.** The header of a section is told to name that section exactly
when its name starts with a dot; what it is told to name otherwise is what `ToldAs` says.  So the
headers of two sections that start with a dot are told alike only if the sections are one. -/
theorem sectionLine_told (name : String) :
    (ofString (sectionLine name) = .sectionHeader name ↔ name.toList.head? = some '.')
    ∧ (∀ text, ofString (sectionLine name) = .sectionHeader text ↔ ToldAs name text)
    ∧ ∀ name', name.toList.head? = some '.' → name'.toList.head? = some '.' →
      ofString (sectionLine name) = ofString (sectionLine name') → name = name' := by
  refine ⟨?_, fun text => ofString_sectionLine_iff, ?_⟩
  · constructor
    · intro h
      exact (ofString_sectionLine_iff.mp h).head?_text
    · exact ofString_sectionLine
  · intro name' hdot hdot' h
    rw [ofString_sectionLine hdot, ofString_sectionLine hdot', Line.sectionHeader.injEq] at h
    exact h

/-- Two sections that share letters behind their dots, one of them with a colon at its end. -/
theorem sectionLine_told_two_sections :
    ".text.a".toList.head? = some '.' ∧ ".text.a:".toList.head? = some '.'
    ∧ ofString (sectionLine ".text.a:") = .sectionHeader ".text.a:"
    ∧ ofString (sectionLine ".text.a") ≠ ofString (sectionLine ".text.a:") := by
  have hdot : ".text.a".toList.head? = some '.' := by decide
  have hdot' : ".text.a:".toList.head? = some '.' := by decide
  obtain ⟨-, -, hapart⟩ := sectionLine_told ".text.a"
  obtain ⟨hrecovered, -, -⟩ := sectionLine_told ".text.a:"
  refine ⟨hdot, hdot', hrecovered.mpr hdot', ?_⟩
  intro h
  exact absurd (hapart ".text.a:" hdot hdot' h) (by decide)

/-- A section without a dot is not recovered, and one with letters before its dot is taken for
another section. -/
theorem undotted_sections_confused :
    ("data" ≠ "" ∧ '\n' ∉ "data".toList
      ∧ ofString (sectionLine "data") = .sectionHeader ".Disassembly of section data"
      ∧ ofString (sectionLine "data") ≠ .sectionHeader "data")
    ∧ ("x.data" ≠ ".data" ∧ '\n' ∉ "x.data".toList ∧ '\n' ∉ ".data".toList
      ∧ ofString (sectionLine "x.data") = ofString (sectionLine ".data")) := by
  decide +kernel

end ByteEmbed.Listing
