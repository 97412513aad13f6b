import Mathlib.Data.List.TakeWhile
import ByteEmbed.Listing.Line
import ByteEmbed.Proofs.Digit
import ByteEmbed.Proofs.Text.Lines

/-!
# ByteEmbed.Proofs.Listing.Line — what each shape of line is told by.

A byte line carries hexadecimal digits and at least one of them (`isHex_of_byteRun`): whatever else
stands on such a line never reaches a collector.  Only a header reads its line to the end, so only
to a header does it matter whether the line end took a carriage return with it
(`ofChars_withoutReturn`).
-/

namespace ByteEmbed.Listing.Line

/-! ## Shapes -/

/-- Whether a line is the header of a section or of a symbol. -/
def isHeader : Line → Bool
  | sectionHeader _ | symbolHeader _ => true
  | byteRun _ | other => false

theorem sectionWord_eq :
    sectionWord = ['D', 'i', 's', 'a', 's', 's', 'e', 'm', 'b', 'l', 'y'] := by
  rfl

theorem ofChars_section {raw : List Char} (h : sectionWord <+: raw) :
    ofChars raw = .sectionHeader (String.ofList (sectionOf raw)) := by
  unfold ofChars
  rw [if_pos (List.isPrefixOf_iff_prefix.mpr h)]

theorem ofChars_symbol (text : List Char) :
    ofChars ('<' :: text) = .symbolHeader (String.ofList (labelOf text)) := by
  unfold ofChars
  rw [sectionWord_eq]
  rfl

theorem ofChars_tab (text : List Char) :
    ofChars ('\t' :: text)
      = if byteDigits text = [] then .other else .byteRun (String.ofList (byteDigits text)) := by
  unfold ofChars
  rw [sectionWord_eq]
  cases hdigits : byteDigits text with
  | nil => simp [hdigits]
  | cons c digits => simp [hdigits]

/-- Every other start of a line is of no interest. -/
theorem ofChars_other {raw : List Char} (hsection : ¬ sectionWord <+: raw)
    (hsymbol : raw.head? ≠ some '<') (htab : raw.head? ≠ some '\t') : ofChars raw = .other := by
  unfold ofChars
  rw [if_neg fun h => hsection (List.isPrefixOf_iff_prefix.mp h)]
  split
  · exact absurd rfl hsymbol
  · exact absurd rfl htab
  · rfl

/-! ## What a header holds -/

theorem sectionOf_words {words name : List Char} (hwords : ∀ c ∈ words, isWordChar c = true)
    (hdot : name.head? = some '.') : sectionOf (words ++ name ++ [':']) = name := by
  have hbody : withoutColon (words ++ name ++ [':']) = words ++ name := by
    rw [withoutColon, List.getLast?_concat, if_pos rfl, List.dropLast_concat]
  rw [sectionOf, hbody, List.dropWhile_append_of_pos hwords]
  cases name with
  | nil => cases hdot
  | cons c rest =>
      rw [List.head?_cons] at hdot
      cases hdot
      rfl

/-- A section whose name starts with a dot is cut out of its header as it is. -/
theorem ofChars_words {words name : List Char} (hsection : sectionWord <+: words)
    (hwords : ∀ c ∈ words, isWordChar c = true) (hdot : name.head? = some '.') :
    ofChars (words ++ name ++ [':']) = .sectionHeader (String.ofList name) := by
  have hword : sectionWord <+: words ++ name ++ [':'] := by
    rw [List.append_assoc]
    exact hsection.trans (List.prefix_append _ _)
  rw [ofChars_section hword, sectionOf_words hwords hdot]

theorem labelOf_closed (label : List Char) : labelOf (label ++ ['>', ':']) = label := by
  have htext : label ++ ['>', ':'] = label ++ ['>'] ++ [':'] := by simp
  rw [labelOf, htext, List.dropLast_concat, List.dropLast_concat]

/-- What a section header holds is cut out of its line, up to the dot that stands before it. -/
theorem mem_of_mem_sectionOf {header : List Char} {c : Char} (h : c ∈ sectionOf header) :
    c = '.' ∨ c ∈ header := by
  have hbody : ∀ d ∈ withoutColon header, d ∈ header := by
    intro d hd
    unfold withoutColon at hd
    split at hd
    · exact (List.dropLast_sublist header).subset hd
    · exact hd
  rw [sectionOf] at h
  split at h
  · rename_i name hname
    rcases List.mem_cons.mp h with hc | hc
    · exact Or.inl hc
    · refine Or.inr (hbody c ((List.dropWhile_suffix isWordChar).subset ?_))
      rw [hname]
      exact List.mem_cons_of_mem _ hc
  · rcases List.mem_cons.mp h with hc | hc
    · exact Or.inl hc
    · exact Or.inr (hbody c hc)

theorem mem_of_mem_labelOf {text : List Char} {c : Char} (h : c ∈ labelOf text) : c ∈ text :=
  ((List.dropLast_sublist _).trans (List.dropLast_sublist _)).subset h

/-- What a line names as its section is cut out of it. -/
theorem section_of_ofChars {raw : List Char} {name : String}
    (h : ofChars raw = .sectionHeader name) : name = String.ofList (sectionOf raw) := by
  unfold ofChars at h
  split at h
  · cases h
    rfl
  · split at h
    · cases h
    · split at h
      · cases h
      · cases h
    · cases h

/-- A line that holds a label starts with an angle bracket. -/
theorem symbol_of_ofChars {raw : List Char} {label : String}
    (h : ofChars raw = .symbolHeader label) :
    ∃ text, raw = '<' :: text ∧ label = String.ofList (labelOf text) := by
  unfold ofChars at h
  split at h
  · cases h
  · split at h
    · cases h
      exact ⟨_, rfl, rfl⟩
    · split at h
      · cases h
      · cases h
    · cases h

/-! ## The digits of a byte line -/

theorem byteDigits_digit {c : Char} (h : Digit.isHex c = true) (text : List Char) :
    byteDigits (c :: text) = c :: byteDigits text := by
  have hspace : c ≠ ' ' := by
    rintro rfl
    exact absurd h (by decide)
  simp [byteDigits, h, hspace]

theorem byteDigits_space (text : List Char) : byteDigits (' ' :: text) = byteDigits text := by
  simp [byteDigits]

theorem byteDigits_stop {c : Char} (hhex : Digit.isHex c = false) (hspace : c ≠ ' ')
    (text : List Char) : byteDigits (c :: text) = [] := by
  simp [byteDigits, hhex, hspace]

theorem byteDigits_snoc_return (text : List Char) :
    byteDigits (text ++ ['\r']) = byteDigits text := by
  have hstop : (['\r'].takeWhile fun c => Digit.isHex c || c == ' ') = [] := by decide
  unfold byteDigits
  rw [List.takeWhile_append, hstop]
  split
  · rename_i hall
    rw [List.append_nil, List.IsPrefix.eq_of_length (List.takeWhile_prefix _) hall]
  · rfl

theorem isHex_of_mem_byteDigits {text : List Char} {c : Char} (h : c ∈ byteDigits text) :
    Digit.isDigit 16 c = true := by
  obtain ⟨hmem, hspace⟩ := List.mem_filter.mp h
  have htaken := List.mem_takeWhile_imp hmem
  have hne : (c == ' ') = false := by simpa using hspace
  simpa [hne, Digit.isHex] using htaken

theorem byteRun_of_ofChars {raw : List Char} {digits : String}
    (h : ofChars raw = .byteRun digits) :
    ∃ text, raw = '\t' :: text ∧ byteDigits text ≠ []
      ∧ digits = String.ofList (byteDigits text) := by
  by_cases hsection : sectionWord <+: raw
  · rw [ofChars_section hsection] at h
    cases h
  · cases raw with
    | nil => cases h
    | cons c text =>
        by_cases hsymbol : c = '<'
        · rw [hsymbol, ofChars_symbol] at h
          cases h
        · by_cases htab : c = '\t'
          · rw [htab, ofChars_tab] at h
            split at h
            · cases h
            · rename_i hne
              cases h
              exact ⟨text, by rw [htab], hne, rfl⟩
          · rw [ofChars_other hsection (by simpa using hsymbol) (by simpa using htab)] at h
            cases h

/-- The payload of a byte line is hexadecimal digits, and not empty. -/
theorem isHex_of_byteRun {raw digits : String} (h : ofString raw = .byteRun digits) :
    digits ≠ "" ∧ ∀ c ∈ digits.toList, Digit.isDigit 16 c = true := by
  obtain ⟨text, -, hne, rfl⟩ := byteRun_of_ofChars h
  rw [String.toList_ofList]
  refine ⟨?_, fun c hc => isHex_of_mem_byteDigits hc⟩
  rw [ne_eq, ← String.toList_eq_nil_iff, String.toList_ofList]
  exact hne

/-! ## Line ends -/

theorem ofChars_snoc_return {line : List Char}
    (h : (ofChars (line ++ ['\r'])).isHeader = false) :
    ofChars line = ofChars (line ++ ['\r']) := by
  have hreturn : ¬ sectionWord <+: line ++ ['\r'] := by
    intro hword
    rw [ofChars_section hword] at h
    cases h
  have hsection : ¬ sectionWord <+: line := fun hword =>
    hreturn (hword.trans (List.prefix_append _ _))
  cases line with
  | nil => rfl
  | cons c text =>
      rw [List.cons_append] at h hreturn ⊢
      by_cases hsymbol : c = '<'
      · rw [hsymbol, ofChars_symbol] at h
        cases h
      · by_cases htab : c = '\t'
        · rw [htab, ofChars_tab, ofChars_tab, byteDigits_snoc_return]
        · rw [ofChars_other hsection (by simpa using hsymbol) (by simpa using htab),
            ofChars_other hreturn (by simpa using hsymbol) (by simpa using htab)]

/-- A line that is no header is told the same with the carriage return at its end and without. -/
theorem ofChars_withoutReturn {line : List Char} (h : (ofChars line).isHeader = false) :
    ofChars (Text.withoutReturn line) = ofChars line := by
  unfold Text.withoutReturn
  split
  · rename_i hlast
    obtain ⟨init, rfl⟩ := List.getLast?_eq_some_iff.mp hlast
    rw [List.dropLast_concat]
    exact ofChars_snoc_return h
  · rfl

end ByteEmbed.Listing.Line
