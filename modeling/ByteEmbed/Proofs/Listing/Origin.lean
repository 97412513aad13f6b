import ByteEmbed.Proofs.Listing.Naming

/-!
# ByteEmbed.Proofs.Listing.Origin — where the characters of a symbol's section and label come from.

A section is cut out of a line of the listing, or it is the default one; a label is cut out of a
line, or it is the name that was generated at the start.  So a property of characters that holds
throughout the lines of a listing holds throughout the sections and labels of its symbols, if the
default section and all identifiers have it as well.  Line feeds are the first case: no line holds
one, whatever the text is.
-/

namespace ByteEmbed.Listing

open Collector (linesOf)

theorem mem_of_mem_headers {lines : List Line} {group : Group} (h : group ∈ groups lines)
    {header : Line} (hheader : header ∈ group.headers) : header ∈ lines := by
  rw [groups, List.mem_mapIdx] at h
  obtain ⟨i, hi, rfl⟩ := h
  exact (List.filter_sublist.subset ((List.take_sublist i _).subset hheader))

/-- Every symbol of a listing that is accepted comes from one of its groups. -/
theorem exists_group_of_mem {σ : Type} [DigitSource σ] {source : σ} {text : String}
    {records : List Symbol} (h : symbolsOf source text = .ok records) {symbol : Symbol}
    (hsymbol : symbol ∈ records) :
    ∃ group ∈ groups (linesOf text), IsSymbolOf source group symbol := by
  have hgroups := isSymbolOf_of_symbolsOf h
  obtain ⟨i, hi, rfl⟩ := List.getElem_of_mem hsymbol
  have hlength := hgroups.length_eq.symm ▸ hi
  exact ⟨_, List.mem_of_mem_filter (List.getElem_mem hlength), hgroups.get hlength hi⟩

section

variable {p : Char → Prop} {text : String}
  (hlines : ∀ line ∈ Text.lines text, ∀ c ∈ line.toList, p c)

include hlines

theorem forall_mem_section {name : String} (h : Line.sectionHeader name ∈ linesOf text)
    (hdot : p '.') : ∀ c ∈ name.toList, p c := by
  obtain ⟨raw, hraw, heq⟩ := List.mem_map.mp h
  rw [Line.section_of_ofChars heq, String.toList_ofList]
  intro c hc
  rcases Line.mem_of_mem_sectionOf hc with rfl | hc
  · exact hdot
  · exact hlines raw hraw c hc

theorem forall_mem_label {label : String} (h : Line.symbolHeader label ∈ linesOf text) :
    ∀ c ∈ label.toList, p c := by
  obtain ⟨raw, hraw, heq⟩ := List.mem_map.mp h
  obtain ⟨chars, hchars, rfl⟩ := Line.symbol_of_ofChars heq
  rw [String.toList_ofList]
  intro c hc
  refine hlines raw hraw c ?_
  rw [hchars]
  exact List.mem_cons_of_mem _ (Line.mem_of_mem_labelOf hc)

variable {σ : Type} [DigitSource σ] {source : σ} {group : Group} {symbol : Symbol}

/-- The section of a symbol, when the default section has the property. -/
theorem IsSymbolOf.forall_mem_sectionName (h : IsSymbolOf source group symbol)
    (hgroup : group ∈ groups (linesOf text))
    (hdefault : ∀ c ∈ Collector.defaultSection.toList, p c) :
    ∀ c ∈ symbol.sectionName.toList, p c := by
  rw [h.section_eq, sectionAfter]
  cases hlast : (group.headers.filterMap Line.sectionName?).getLast? with
  | none => exact hdefault
  | some name =>
      obtain ⟨header, hheader, hname⟩ := List.mem_filterMap.mp (List.mem_of_getLast? hlast)
      obtain rfl : header = .sectionHeader name := by
        cases header <;> cases hname
        rfl
      exact forall_mem_section hlines (mem_of_mem_headers hgroup hheader)
        (hdefault '.' (by decide))

/-- The label of a symbol, when all identifiers have the property. -/
theorem IsSymbolOf.forall_mem_realName (h : IsSymbolOf source group symbol)
    (hgroup : group ∈ groups (linesOf text))
    (hidentifier : ∀ c, isIdentifierTail c = true → p c) :
    ∀ c ∈ symbol.realName.toList, p c := by
  have hreal : symbol.realName = labelAfter source group.headers :=
    (congrArg Name.real h.name_eq).trans (real_nameAfter source group.headers)
  rw [hreal, labelAfter]
  cases hlast : (group.headers.filterMap Line.label?).getLast? with
  | none =>
      intro c hc
      have hname := Namer.isIdentifier_draw (Namer.ofSource source)
      exact hidentifier c (isIdentifierTail_of_mem hname hc)
  | some label =>
      obtain ⟨header, hheader, hlabel⟩ := List.mem_filterMap.mp (List.mem_of_getLast? hlast)
      obtain rfl : header = .symbolHeader label := by
        cases header <;> cases hlabel
        rfl
      exact forall_mem_label hlines (mem_of_mem_headers hgroup hheader)

end

end ByteEmbed.Listing
