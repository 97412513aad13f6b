import ByteEmbed.Proofs.Listing.Group

/-!
# ByteEmbed.Proofs.Listing.Collected — a pass over a listing collects the symbols of its groups.

The pass and the groups are tied by `Follows`: before each line, the collector has in effect what
the headers so far say, and its gathered digits are those of the open group.  A header closes the
group and is then in effect itself; the end closes the last one.  `finished?_groups` carries this
through the lines that remain, from any state of the pass.
-/

namespace ByteEmbed.Listing

open Collector (closed? closing closed?_of_spells toList_symbols_closing emitted emitted_of_ne_nil
  after? finished? finished?_cons linesOf)

variable {σ : Type} [DigitSource σ]

/-! ## What is in effect -/

/-- The collector has in effect what `headers` say. -/
structure Follows (source : σ) (headers : List Line) (collector : Collector σ) : Prop where
  section_eq : collector.sectionName = sectionAfter headers
  name_eq : (collector.name, collector.namer) = nameAfter source headers

theorem follows_ofSource (source : σ) : Follows source [] (Collector.ofSource source) :=
  ⟨rfl, rfl⟩

/-- Puts a header into effect. -/
def enter (collector : Collector σ) : Line → Collector σ
  | .sectionHeader name => collector.enterSection name
  | .symbolHeader label => collector.enterSymbol label
  | _ => collector

theorem after?_header {line : Line} (h : line.isHeader = true) (collector : Collector σ) :
    collector.after? line = collector.closed?.map (enter · line) := by
  cases line with
  | sectionHeader name => rfl
  | symbolHeader label => rfl
  | byteRun digits => cases h
  | other => cases h

@[simp]
theorem pending_enter (collector : Collector σ) (line : Line) :
    (enter collector line).pending = collector.pending := by
  cases line <;> rfl

@[simp]
theorem symbols_enter (collector : Collector σ) (line : Line) :
    (enter collector line).symbols = collector.symbols := by
  cases line <;> rfl

theorem sectionAfter_snoc_section (headers : List Line) (name : String) :
    sectionAfter (headers ++ [.sectionHeader name]) = name := by
  simp [sectionAfter, Line.sectionName?]

theorem sectionAfter_snoc_symbol (headers : List Line) (label : String) :
    sectionAfter (headers ++ [.symbolHeader label]) = sectionAfter headers := by
  simp [sectionAfter, Line.sectionName?]

theorem nameAfter_snoc_section (source : σ) (headers : List Line) (name : String) :
    nameAfter source (headers ++ [.sectionHeader name]) = nameAfter source headers := by
  have hlabels : (headers ++ [Line.sectionHeader name]).filterMap Line.label?
      = headers.filterMap Line.label? := by
    rw [List.filterMap_append]
    exact List.append_nil _
  rw [nameAfter, nameAfter, hlabels]

theorem nameAfter_snoc_symbol (source : σ) (headers : List Line) (label : String) :
    nameAfter source (headers ++ [.symbolHeader label])
      = (nameAfter source headers).2.nameOf label := by
  simp [nameAfter, Line.label?]

/-- A header that is put into effect is the last one that the collector follows. -/
theorem Follows.enter {source : σ} {headers : List Line} {collector : Collector σ}
    (h : Follows source headers collector) {line : Line} (hheader : line.isHeader = true) :
    Follows source (headers ++ [line]) (enter collector line) := by
  obtain ⟨hsection, hname⟩ := h
  cases line with
  | sectionHeader name =>
      refine ⟨(sectionAfter_snoc_section headers name).symm, ?_⟩
      rw [nameAfter_snoc_section]
      exact hname
  | symbolHeader label =>
      refine ⟨?_, ?_⟩
      · rw [sectionAfter_snoc_symbol]
        exact hsection
      · rw [nameAfter_snoc_symbol, ← hname]
        rfl
  | byteRun digits => cases hheader
  | other => cases hheader

/-! ## Closing a group -/

/-- What closing gives is the symbol of the group, or nothing for a group without digits. -/
theorem forall₂_emitted {source : σ} {headers : List Line} {collector : Collector σ}
    (hfollows : Follows source headers collector) {bytes : List UInt8}
    (h : Hex.Spells collector.pending.toList bytes) :
    List.Forall₂ (IsSymbolOf source)
      ([(⟨headers, collector.pending⟩ : Group)].filter (·.digits ≠ ""))
      (emitted collector bytes) := by
  by_cases hpending : collector.pending = ""
  · rw [hpending] at h
    cases h
    simp [emitted, hpending]
  · have hne := h.ne_nil hpending
    have hsymbol : IsSymbolOf source ⟨headers, collector.pending⟩
        { sectionName := collector.sectionName
          name := collector.name.display
          realName := collector.name.real
          bytes } :=
      ⟨hfollows.section_eq, congrArg Prod.fst hfollows.name_eq, h⟩
    simpa [emitted_of_ne_nil hne, hpending] using hsymbol

/-! ## The pass -/

/-- From any state of the pass: if the digits of every group to come spell bytes, the pass is
accepted and adds the symbols of those groups that have digits. -/
theorem finished?_groups {source : σ} {headers : List Line} {collector : Collector σ}
    (hfollows : Follows source headers collector) {lines : List Line}
    (hspells : ∀ group ∈ groupsFrom headers collector.pending lines,
      ∃ bytes, Hex.Spells group.digits.toList bytes) :
    ∃ records last, collector.finished? lines = .ok last
      ∧ last.symbols.toList = collector.symbols.toList ++ records
      ∧ List.Forall₂ (IsSymbolOf source)
          ((groupsFrom headers collector.pending lines).filter (·.digits ≠ "")) records
      ∧ last.namer = (nameAfter source (headers ++ lines.filter Line.isHeader)).2 := by
  -- the induction is on the lines to come; the headers and the collector grow with those read
  induction lines generalizing headers collector with
  | nil =>
      -- the end closes the last group
      rw [groupsFrom_nil] at hspells ⊢
      obtain ⟨bytes, hbytes⟩ := hspells ⟨headers, collector.pending⟩ (by simp)
      refine ⟨emitted collector bytes, _, closed?_of_spells hbytes,
        toList_symbols_closing collector bytes, forall₂_emitted hfollows hbytes, ?_⟩
      rw [List.filter_nil, List.append_nil]
      exact congrArg Prod.snd hfollows.name_eq
  | cons line lines ih =>
      rw [finished?_cons]
      cases hheader : line.isHeader with
      | true =>
          -- the header closes the group in front of it, and only then is it in effect
          rw [groupsFrom_cons_header hheader] at hspells ⊢
          obtain ⟨bytes, hbytes⟩ := hspells ⟨headers, collector.pending⟩ (by simp)
          rw [after?_header hheader, closed?_of_spells hbytes]
          have hclosed : Follows source headers (closing collector bytes) :=
            ⟨hfollows.section_eq, hfollows.name_eq⟩
          obtain ⟨records, last, hlast, hsymbols, hrecords, hnamer⟩ :=
            ih (hclosed.enter hheader) (by
              intro group hgroup
              rw [pending_enter] at hgroup
              exact hspells group (List.mem_cons_of_mem _ hgroup))
          refine ⟨emitted collector bytes ++ records, last, hlast, ?_, ?_, ?_⟩
          · rw [hsymbols, symbols_enter, toList_symbols_closing, List.append_assoc]
          · rw [pending_enter] at hrecords
            have hfilter := List.filter_append (p := (·.digits ≠ ""))
              [(⟨headers, collector.pending⟩ : Group)] (groupsFrom (headers ++ [line]) "" lines)
            rw [List.singleton_append] at hfilter
            rw [hfilter]
            exact List.rel_append (forall₂_emitted hfollows hbytes) hrecords
          · rw [hnamer, List.filter_cons_of_pos hheader, List.append_assoc]
            rfl
      | false =>
          -- the group stays open, with the digits of the line if it has any
          rw [groupsFrom_cons_of_not_header hheader] at hspells ⊢
          rw [List.filter_cons_of_neg (by simp [hheader])]
          cases line with
          | sectionHeader name => cases hheader
          | symbolHeader label => cases hheader
          | byteRun digits =>
              rw [digitsOf_byteRun] at hspells ⊢
              have hgathered : Follows source headers (collector.gather digits) :=
                ⟨hfollows.section_eq, hfollows.name_eq⟩
              exact ih hgathered hspells
          | other =>
              rw [digitsOf_other, String.append_empty] at hspells ⊢
              exact ih hfollows hspells

/-! ## The digits of groups -/

/-- A text of hexadecimal digits. -/
def IsHexText (text : String) : Prop := ∀ c ∈ text.toList, Digit.isDigit 16 c = true

theorem IsHexText.empty : IsHexText "" := by
  intro c hc
  simp at hc

theorem IsHexText.append {text text' : String} (h : IsHexText text) (h' : IsHexText text') :
    IsHexText (text ++ text') := by
  intro c hc
  rw [String.toList_append] at hc
  rcases List.mem_append.mp hc with hc | hc
  · exact h c hc
  · exact h' c hc

/-- What a line of a text adds to its group is digits. -/
theorem isHexText_digitsOf {text : String} {line : Line} (h : line ∈ linesOf text) :
    IsHexText (digitsOf [line]) := by
  obtain ⟨raw, -, hraw⟩ := List.mem_map.mp h
  cases line with
  | byteRun digits =>
      rw [digitsOf_byteRun]
      exact (Line.isHex_of_byteRun hraw).2
  | sectionHeader name => exact .empty
  | symbolHeader label => exact .empty
  | other => exact .empty

theorem isHexText_groupsFrom {lines : List Line}
    (hlines : ∀ line ∈ lines, IsHexText (digitsOf [line])) (headers : List Line)
    {pending : String} (hpending : IsHexText pending) :
    ∀ group ∈ groupsFrom headers pending lines, IsHexText group.digits := by
  induction lines generalizing headers pending with
  | nil =>
      intro group hgroup
      rw [groupsFrom_nil, List.mem_singleton] at hgroup
      rw [hgroup]
      exact hpending
  | cons line lines ih =>
      have hrest : ∀ l ∈ lines, IsHexText (digitsOf [l]) :=
        fun l hl => hlines l (List.mem_cons_of_mem _ hl)
      intro group hgroup
      cases hheader : line.isHeader with
      | true =>
          rw [groupsFrom_cons_header hheader] at hgroup
          rcases List.mem_cons.mp hgroup with rfl | hgroup
          · exact hpending
          · exact ih hrest _ .empty group hgroup
      | false =>
          rw [groupsFrom_cons_of_not_header hheader] at hgroup
          exact ih hrest _ (hpending.append (hlines line (by simp))) group hgroup

/-- Cutting moves no digit. -/
theorem join_digits_groupsFrom (headers : List Line) (pending : String) (lines : List Line) :
    String.join ((groupsFrom headers pending lines).map Group.digits)
      = pending ++ digitsOf lines := by
  induction lines generalizing headers pending with
  | nil => simp [groupsFrom_nil]
  | cons line lines ih =>
      have hdigits : digitsOf (line :: lines) = digitsOf [line] ++ digitsOf lines :=
        digitsOf_append [line] lines
      cases hheader : line.isHeader with
      | true =>
          rw [groupsFrom_cons_header hheader, List.map_cons, String.join_cons, ih, hdigits,
            digitsOf_header hheader, String.empty_append]
      | false =>
          rw [groupsFrom_cons_of_not_header hheader, ih, hdigits, String.append_assoc]

/-- The digits of all groups spell the bytes of all symbols. -/
theorem spells_flatMap_bytes {source : σ} {parts : List Group} {records : List Symbol}
    (h : List.Forall₂ (IsSymbolOf source) (parts.filter (·.digits ≠ "")) records) :
    Hex.Spells (String.join (parts.map Group.digits)).toList (records.flatMap Symbol.bytes) := by
  induction parts generalizing records with
  | nil =>
      cases h
      exact .nil
  | cons group parts ih =>
      rw [List.map_cons, String.join_cons, String.toList_append]
      by_cases hdigits : group.digits = ""
      · -- a group that is left out adds no digit either
        rw [List.filter_cons_of_neg (by simp [hdigits])] at h
        rw [hdigits, String.toList_empty, List.nil_append]
        exact ih h
      · rw [List.filter_cons_of_pos (by simp [hdigits])] at h
        obtain ⟨record, records, hrecord, hrest, rfl⟩ := List.forall₂_cons_left_iff.mp h
        exact hrecord.bytes_eq.append (ih hrest)

/-- The symbol of a group with digits has bytes. -/
theorem bytes_ne_nil {source : σ} {parts : List Group} {records : List Symbol}
    (hparts : ∀ group ∈ parts, group.digits ≠ "")
    (h : List.Forall₂ (IsSymbolOf source) parts records) :
    ∀ record ∈ records, record.bytes ≠ [] := by
  induction h with
  | nil => simp
  | cons hsymbol hrest ih =>
      intro record hrecord
      rcases List.mem_cons.mp hrecord with rfl | hrecord
      · exact hsymbol.bytes_eq.ne_nil (hparts _ (by simp))
      · exact ih (fun group hgroup => hparts group (List.mem_cons_of_mem _ hgroup)) record hrecord

/-! ## Whole listings -/

/-- Only headers hold labels. -/
theorem nameAfter_filter (source : σ) (lines : List Line) :
    nameAfter source (lines.filter Line.isHeader) = nameAfter source lines := by
  have hlabels : (lines.filter Line.isHeader).filterMap Line.label?
      = lines.filterMap Line.label? := by
    rw [List.filterMap_filter]
    congr 1
    funext line
    cases line <;> rfl
  rw [nameAfter, nameAfter, hlabels]

/-- **The symbols of a listing.** If every group of the lines of a text has an even number of
digits, the text is accepted, with one symbol for each group that has digits, in order.  Every label
has then been resolved once; no symbol is empty, and all bytes are those of all byte lines. -/
theorem collect_groups (source : σ) (text : String)
    (heven : ∀ group ∈ groups (linesOf text), group.digits.length % 2 = 0) :
    ∃ records last,
      (Collector.collect text).run (Collector.ofSource source) = (.ok records, last)
      ∧ symbolsOf source text = .ok records
      ∧ List.Forall₂ (IsSymbolOf source) ((groups (linesOf text)).filter (·.digits ≠ "")) records
      ∧ last.namer = (nameAfter source (linesOf text)).2
      ∧ (∀ record ∈ records, record.bytes ≠ [])
      ∧ Hex.Spells (digitsOf (linesOf text)).toList (records.flatMap Symbol.bytes) := by
  have hlines : ∀ line ∈ linesOf text, IsHexText (digitsOf [line]) :=
    fun _ => isHexText_digitsOf
  have hhex := isHexText_groupsFrom hlines [] .empty
  rw [groups_eq_groupsFrom] at heven ⊢
  have hspells : ∀ group ∈ groupsFrom [] "" (linesOf text),
      ∃ bytes, Hex.Spells group.digits.toList bytes := by
    intro group hgroup
    refine Hex.exists_spells_iff.mpr ⟨?_, hhex group hgroup⟩
    rw [String.length_toList]
    exact heven group hgroup
  obtain ⟨records, last, hlast, hsymbols, hrecords, hnamer⟩ :=
    finished?_groups (follows_ofSource source) hspells
  -- a new collector has no symbols and no digits
  have hsymbols : last.symbols.toList = records := hsymbols
  have hrecords : List.Forall₂ (IsSymbolOf source)
    ((groupsFrom [] "" (linesOf text)).filter (·.digits ≠ "")) records := hrecords
  refine ⟨records, last, ?_, ?_, hrecords, ?_, ?_, ?_⟩
  · rw [← hsymbols]
    exact Collector.runOn_collect_ok hlast
  · rw [Collector.symbolsOf_eq, hlast, ← hsymbols]
    rfl
  · rw [hnamer, List.nil_append, nameAfter_filter]
  · refine bytes_ne_nil ?_ hrecords
    intro group hgroup
    simpa using (List.mem_filter.mp hgroup).2
  · have hall := spells_flatMap_bytes hrecords
    rwa [join_digits_groupsFrom, String.empty_append] at hall

/-- Bytes in front of the first header, noise between byte lines, and a label without bytes. -/
theorem collect_groups_two_symbols :
    (∀ group ∈ groups (linesOf "\t90 90\n<a.b>:\nnoise\n\t4\n\t1 C3\tret\n<f>:\n"),
      group.digits.length % 2 = 0)
    ∧ ∃ records,
      symbolsOf (Xoshiro.ofSeed 0) "\t90 90\n<a.b>:\nnoise\n\t4\n\t1 C3\tret\n<f>:\n"
        = .ok records
      ∧ records.length = 2 := by
  have heven : ∀ group ∈ groups
      (linesOf "\t90 90\n<a.b>:\nnoise\n\t4\n\t1 C3\tret\n<f>:\n"),
      group.digits.length % 2 = 0 := by decide +kernel
  obtain ⟨records, last, -, hsymbols, hrecords, -⟩ :=
    collect_groups (Xoshiro.ofSeed 0) _ heven
  refine ⟨heven, records, hsymbols, ?_⟩
  rw [← hrecords.length_eq]
  decide +kernel

end ByteEmbed.Listing
