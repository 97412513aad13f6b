import ByteEmbed.Proofs.Listing.Collected
import ByteEmbed.Proofs.Listing.Refusal

/-!
# ByteEmbed.Proofs.Listing.FirstRefusal — when a listing is refused, and what for.

The digits of a group come from byte lines of a text, so they are hexadecimal whatever the text is,
and the only thing that can be wrong with them is their number.  A listing is refused exactly when
the digits of some group are odd in number, all lines of the group taken together; and since a pass
stops at its first refusal, it reports the first such group (`symbolsOf_refused`).  The group is
closed by the header *behind* it, or by the end, but what is reported is the section and the label
in effect *before* that header.
-/

namespace ByteEmbed.Listing

open Collector (closed?_of_spells closing closed?_eq_error_iff Unreadable refusal after?
  after?_of_not_header finished? finished?_cons linesOf)

variable {σ : Type} [DigitSource σ]

/-! ## Groups with a digit too many -/

/-- Whether a group has an odd number of digits. -/
def Group.isOdd (group : Group) : Bool := group.digits.length % 2 == 1

theorem Group.isOdd_iff {group : Group} :
    group.isOdd = true ↔ group.digits.length % 2 = 1 := by
  rw [Group.isOdd, beq_iff_eq]

theorem Group.isOdd_eq_false_iff {group : Group} :
    group.isOdd = false ↔ group.digits.length % 2 = 0 := by
  rw [Group.isOdd, beq_eq_false_iff_ne]
  exact Nat.mod_two_not_eq_one

/-- The label in effect after some headers: the last one, or the name generated before any. -/
def labelAfter (source : σ) (headers : List Line) : String :=
  (headers.filterMap Line.label?).getLast?.getD (Namer.ofSource source).placeholder.1.real

/-- What is reported of a group with an odd number of digits. -/
def Group.refusal (source : σ) (group : Group) : MalformedBytes :=
  { symbol := labelAfter source group.headers
    sectionName := sectionAfter group.headers
    length := group.digits.length }

/-- The real name in effect is the label in effect. -/
theorem real_nameAfter (source : σ) (headers : List Line) :
    (nameAfter source headers).1.real = labelAfter source headers := by
  rw [nameAfter, labelAfter]
  rcases List.eq_nil_or_concat (headers.filterMap Line.label?) with hnil | ⟨labels, label, hlast⟩
  · rw [hnil]
    rfl
  · rw [hlast, List.concat_eq_append, List.foldl_concat, List.getLast?_concat]
    exact real_nameOf _ label

/-! ## Closing a group of digits -/

/-- Digits that are all hexadecimal are unreadable only for their number. -/
theorem unreadable_iff_odd {digits : String} (h : IsHexText digits) :
    Unreadable digits ↔ digits.length % 2 = 1 := by
  have hbytes : ¬ ∃ byte ∈ Text.Utf8.encode digits, Digit.isHex (Char.ofUInt8 byte) = false := by
    simpa using (Text.Utf8.forall_mem_encode_iff (p := Digit.isHex)
      (fun c hc => Digit.ascii_of_isDigit hc) digits).mpr h
  rw [Unreadable, Hex.utf8ByteSize_of_isDigit h]
  constructor
  · rintro ⟨-, hodd | hbyte⟩
    · exact hodd
    · exact absurd hbyte hbytes
  · intro hodd
    refine ⟨?_, Or.inl hodd⟩
    rintro rfl
    cases hodd

theorem closed?_of_odd {source : σ} {headers : List Line} {collector : Collector σ}
    (hfollows : Follows source headers collector) (hhex : IsHexText collector.pending)
    (hodd : collector.pending.length % 2 = 1) :
    collector.closed? = .error (Group.refusal source ⟨headers, collector.pending⟩) := by
  rw [closed?_eq_error_iff]
  refine ⟨(unreadable_iff_odd hhex).mpr hodd, ?_⟩
  have hname : collector.name = (nameAfter source headers).1 :=
    congrArg Prod.fst hfollows.name_eq
  rw [Group.refusal, refusal, hfollows.section_eq, hname, real_nameAfter,
    Hex.utf8ByteSize_of_isDigit hhex]

/-! ## The pass -/

/-- From any state of the pass: the first group with an odd number of digits is reported. -/
theorem finished?_odd {source : σ} {headers : List Line} {collector : Collector σ}
    (hfollows : Follows source headers collector) (hpending : IsHexText collector.pending)
    {lines : List Line} (hlines : ∀ line ∈ lines, IsHexText (digitsOf [line])) {group : Group}
    (hfirst : (groupsFrom headers collector.pending lines).find? Group.isOdd = some group) :
    collector.finished? lines = .error (group.refusal source) := by
  -- the induction is on the lines to come, as the groups are cut
  induction lines generalizing headers collector with
  | nil =>
      rw [groupsFrom_nil, List.find?_singleton] at hfirst
      split at hfirst
      · rename_i hodd
        have hlength := Group.isOdd_iff.mp hodd
        cases hfirst
        exact closed?_of_odd hfollows hpending hlength
      · cases hfirst
  | cons line lines ih =>
      have hrest : ∀ l ∈ lines, IsHexText (digitsOf [l]) :=
        fun l hl => hlines l (List.mem_cons_of_mem _ hl)
      rw [finished?_cons]
      cases hheader : line.isHeader with
      | true =>
          rw [groupsFrom_cons_header hheader, List.find?_cons] at hfirst
          rw [after?_header hheader]
          cases hodd : (⟨headers, collector.pending⟩ : Group).isOdd with
          | true =>
                -- the header closes the group, and cannot
                have hlength := Group.isOdd_iff.mp hodd
                rw [hodd] at hfirst
                cases hfirst
                rw [closed?_of_odd hfollows hpending hlength]
                rfl
          | false =>
                -- the group is closed, and the first odd one is among those behind it
                have hlength := Group.isOdd_eq_false_iff.mp hodd
                rw [hodd] at hfirst
                rw [← String.length_toList] at hlength
                obtain ⟨bytes, hbytes⟩ := Hex.exists_spells_iff.mpr ⟨hlength, hpending⟩
                have hclosed : Follows source headers (closing collector bytes) :=
                  ⟨hfollows.section_eq, hfollows.name_eq⟩
                have hempty : (enter (closing collector bytes) line).pending = "" :=
                  pending_enter _ line
                rw [closed?_of_spells hbytes]
                refine ih (hclosed.enter hheader) ?_ hrest ?_
                · rw [hempty]
                  exact .empty
                · rw [hempty]
                  exact hfirst
      | false =>
          -- the group stays open, with the digits of the line
          rw [groupsFrom_cons_of_not_header hheader] at hfirst
          rw [after?_of_not_header hheader]
          have hgathered : Follows source headers (collector.gather (digitsOf [line])) :=
            ⟨hfollows.section_eq, hfollows.name_eq⟩
          exact ih hgathered (hpending.append (hlines line List.mem_cons_self)) hrest hfirst

/-! ## Whole listings -/

/-- Whatever a text is, the digits of its groups are hexadecimal. -/
theorem isHexText_groups (text : String) :
    ∀ group ∈ groups (linesOf text), IsHexText group.digits := by
  rw [groups_eq_groupsFrom]
  exact isHexText_groupsFrom (fun _ => isHexText_digitsOf) [] .empty

theorem even_of_find?_isOdd {parts : List Group} (h : parts.find? Group.isOdd = none) :
    ∀ group ∈ parts, group.digits.length % 2 = 0 := by
  intro group hgroup
  exact Group.isOdd_eq_false_iff.mp
    (Bool.eq_false_iff.mpr (List.find?_eq_none.mp h group hgroup))

theorem symbolsOf_of_first {text : String} {group : Group}
    (h : (groups (linesOf text)).find? Group.isOdd = some group) (source : σ) :
    symbolsOf source text = .error (group.refusal source) := by
  rw [groups_eq_groupsFrom] at h
  have hrefused : (Collector.ofSource source).finished? (linesOf text)
      = .error (group.refusal source) :=
    finished?_odd (follows_ofSource source) .empty (fun _ => isHexText_digitsOf) h
  rw [Collector.symbolsOf_eq, hrefused]
  rfl

theorem symbolsOf_of_even {text : String}
    (h : ∀ group ∈ groups (linesOf text), group.digits.length % 2 = 0) (source : σ) :
    ∃ records, symbolsOf source text = .ok records
      ∧ List.Forall₂ (IsSymbolOf source) ((groups (linesOf text)).filter (·.digits ≠ "")) records := by
  have hspells : ∀ group ∈ groups (linesOf text), ∃ bytes, Hex.Spells group.digits.toList bytes := by
    intro group hgroup
    refine Hex.exists_spells_iff.mpr ⟨?_, isHexText_groups text group hgroup⟩
    rw [String.length_toList]
    exact h group hgroup
  rw [groups_eq_groupsFrom] at hspells ⊢
  obtain ⟨records, last, hlast, hsymbols, hrecords, -⟩ :=
    finished?_groups (follows_ofSource source) hspells
  -- a new collector has no symbols
  have hsymbols : last.symbols.toList = records := hsymbols
  refine ⟨records, ?_, hrecords⟩
  rw [Collector.symbolsOf_eq, hlast, ← hsymbols]
  rfl

/-- The symbols of a listing that is accepted are those of its groups with digits, in order. -/
theorem isSymbolOf_of_symbolsOf {source : σ} {text : String} {records : List Symbol}
    (h : symbolsOf source text = .ok records) :
    List.Forall₂ (IsSymbolOf source) ((groups (linesOf text)).filter (·.digits ≠ "")) records := by
  cases hfind : (groups (linesOf text)).find? Group.isOdd with
  | none =>
      obtain ⟨records', hrecords', hgroups⟩ :=
        symbolsOf_of_even (even_of_find?_isOdd hfind) source
      rw [h] at hrecords'
      cases hrecords'
      exact hgroups
  | some odd =>
      rw [symbolsOf_of_first hfind source] at h
      cases h

/-- The digits of a listing that is accepted spell the bytes of its symbols, and nothing else. -/
theorem spells_digitsOf {source : σ} {text : String} {records : List Symbol}
    (h : symbolsOf source text = .ok records) :
    Hex.Spells (digitsOf (linesOf text)).toList (records.flatMap Symbol.bytes) := by
  have hall := spells_flatMap_bytes (isSymbolOf_of_symbolsOf h)
  rwa [groups_eq_groupsFrom, join_digits_groupsFrom, String.empty_append] at hall

/-- A refusal is that of the first group with an odd number of digits. -/
theorem symbolsOf_eq_error_iff {source : σ} {text : String} {e : MalformedBytes} :
    symbolsOf source text = .error e
      ↔ ∃ group, (groups (linesOf text)).find? Group.isOdd = some group
        ∧ e = group.refusal source := by
  constructor
  · intro herror
    cases hfind : (groups (linesOf text)).find? Group.isOdd with
    | none =>
        obtain ⟨records, hrecords, -⟩ :=
          symbolsOf_of_even (even_of_find?_isOdd hfind) source
        rw [hrecords] at herror
        cases herror
    | some group =>
        rw [symbolsOf_of_first hfind source, Except.error.injEq] at herror
        exact ⟨group, rfl, herror.symm⟩
  · rintro ⟨group, hfind, rfl⟩
    exact symbolsOf_of_first hfind source

/-- The first group with an odd number of digits has only groups with an even number before it. -/
theorem find?_isOdd_iff {parts : List Group} {group : Group} :
    parts.find? Group.isOdd = some group
      ↔ ∃ earlier later, parts = earlier ++ group :: later
        ∧ (∀ before ∈ earlier, before.digits.length % 2 = 0)
        ∧ group.digits.length % 2 = 1 := by
  rw [List.find?_eq_some_iff_append]
  simp only [Bool.not_eq_true', Group.isOdd_iff, Group.isOdd_eq_false_iff]
  constructor
  · rintro ⟨hodd, earlier, later, hparts, hearlier⟩
    exact ⟨earlier, later, hparts, hearlier, hodd⟩
  · rintro ⟨earlier, later, hparts, hearlier, hodd⟩
    exact ⟨hodd, earlier, later, hparts, hearlier⟩

/-- **When a listing is refused.** A text is refused exactly when some group of its lines has an odd
number of digits, and what is reported is the first such group: its label, its section, and how many
digits it has.  No group ever holds anything but hexadecimal digits. -/
theorem symbolsOf_refused (source : σ) (text : String) :
    ((∃ e, symbolsOf source text = .error e)
      ↔ ∃ group ∈ groups (linesOf text), group.digits.length % 2 = 1)
    ∧ (∀ e, symbolsOf source text = .error e
      ↔ ∃ earlier group later, groups (linesOf text) = earlier ++ group :: later
        ∧ (∀ before ∈ earlier, before.digits.length % 2 = 0)
        ∧ group.digits.length % 2 = 1
        ∧ e = { symbol := labelAfter source group.headers
                sectionName := sectionAfter group.headers
                length := group.digits.length })
    ∧ ∀ group ∈ groups (linesOf text), IsHexText group.digits := by
  refine ⟨?_, ?_, isHexText_groups text⟩
  · constructor
    · rintro ⟨e, herror⟩
      obtain ⟨group, hfind, -⟩ := symbolsOf_eq_error_iff.mp herror
      obtain ⟨earlier, later, hgroups, -, hodd⟩ := find?_isOdd_iff.mp hfind
      exact ⟨group, by simp [hgroups], hodd⟩
    · rintro ⟨group, hgroup, hodd⟩
      have hsome : ((groups (linesOf text)).find? Group.isOdd).isSome = true :=
        List.find?_isSome.mpr ⟨group, hgroup, Group.isOdd_iff.mpr hodd⟩
      obtain ⟨first, hfind⟩ := Option.isSome_iff_exists.mp hsome
      exact ⟨first.refusal source, symbolsOf_of_first hfind source⟩
  · intro e
    rw [symbolsOf_eq_error_iff]
    constructor
    · rintro ⟨group, hfind, he⟩
      obtain ⟨earlier, later, hgroups, hearlier, hodd⟩ := find?_isOdd_iff.mp hfind
      exact ⟨earlier, group, later, hgroups, hearlier, hodd, he⟩
    · rintro ⟨earlier, group, later, hgroups, hearlier, hodd, he⟩
      exact ⟨group, find?_isOdd_iff.mpr ⟨earlier, later, hgroups, hearlier, hodd⟩, he⟩

/-- A digit too many on one line, made up for by the next line but not across a header. -/
example : symbolsOf (Xoshiro.ofSeed 0) "<f>:\n\t1\n\t2\n<g>:\n\t41 4\nDisassembly of section .init:\n"
    = .error { symbol := "g", sectionName := ".text", length := 3 } := by
  decide +kernel

end ByteEmbed.Listing
