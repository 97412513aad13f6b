import ByteEmbed.Proofs.Naming.Generated

/-!
# ByteEmbed.Proofs.Naming.Label — labels that have a name of their own, and labels that have none.

`FixedName` says which name a label has without any being generated, `Nameless` that it has none.
Every label is one or the other, and the namer goes by it: a label with a name leaves the namer as
it was, a nameless one takes digits from the source and advances the count.
-/

namespace ByteEmbed.Namer

/-- `text` is the name that `label` has without any being generated: the label, if it is an
identifier, or what the section is called that it names behind a dot. -/
inductive FixedName : String → String → Prop
  | plain {label : String} (identifier : isIdentifier label = true) : FixedName label label
  | dotted {name : List Char} (identifier : isIdentifier (normalized name) = true) :
      FixedName (String.ofList ('.' :: name)) (sectionStart ++ normalized name)

/-- A label that no name can be made of: one without a dot at its start that is no identifier, or
one with a dot whose rest, dots and hyphens turned into underscores, is none. -/
inductive Nameless : String → Prop
  | plain {label : String} (nodot : label.toList.head? ≠ some '.')
      (identifier : isIdentifier label = false) : Nameless label
  | dotted {name : List Char} (identifier : isIdentifier (normalized name) = false) :
      Nameless (String.ofList ('.' :: name))

/-! ## Labels -/

theorem isIdentifier_dotted (name : List Char) :
    isIdentifier (String.ofList ('.' :: name)) = false := by
  have hhead : isIdentifierHead '.' = false := by decide
  simp [isIdentifier, hhead]

theorem fixed?_dotted (name : List Char) :
    fixed? (String.ofList ('.' :: name))
      = if isIdentifier (normalized name) = true then some (sectionStart ++ normalized name)
        else none := by
  simp only [fixed?, String.toList_ofList]

theorem fixed?_plain {label : String} (h : label.toList.head? ≠ some '.') :
    fixed? label = if isIdentifier label = true then some label else none := by
  unfold fixed?
  split
  · rename_i hlabel
    rw [hlabel] at h
    exact absurd rfl h
  · rfl

/-- A label starts with a dot, or it does not. -/
theorem exists_dotted_or_plain (label : String) :
    (∃ name, label = String.ofList ('.' :: name)) ∨ label.toList.head? ≠ some '.' := by
  by_cases hhead : label.toList.head? = some '.'
  · obtain ⟨name, hname⟩ := List.head?_eq_some_iff.mp hhead
    refine Or.inl ⟨name, ?_⟩
    rw [← hname, String.ofList_toList]
  · exact Or.inr hhead

/-- No identifier starts with a dot. -/
theorem head?_of_isIdentifier {label : String} (h : isIdentifier label = true) :
    label.toList.head? ≠ some '.' := by
  rcases exists_dotted_or_plain label with ⟨name, rfl⟩ | hplain
  · rw [isIdentifier_dotted] at h
    cases h
  · exact hplain

theorem fixed?_eq_some_iff {label text : String} :
    fixed? label = some text ↔ FixedName label text := by
  constructor
  · intro h
    rcases exists_dotted_or_plain label with ⟨name, rfl⟩ | hplain
    · rw [fixed?_dotted] at h
      split at h
      · rename_i hname
        cases h
        exact .dotted hname
      · cases h
    · rw [fixed?_plain hplain] at h
      split at h
      · rename_i hlabel
        cases h
        exact .plain hlabel
      · cases h
  · intro h
    cases h with
    | plain hlabel => rw [fixed?_plain (head?_of_isIdentifier hlabel), if_pos hlabel]
    | dotted hname => rw [fixed?_dotted, if_pos hname]

theorem fixed?_eq_none_iff {label : String} : fixed? label = none ↔ Nameless label := by
  constructor
  · intro h
    rcases exists_dotted_or_plain label with ⟨name, rfl⟩ | hplain
    · rw [fixed?_dotted] at h
      split at h
      · cases h
      · rename_i hname
        exact .dotted (Bool.eq_false_iff.mpr hname)
    · rw [fixed?_plain hplain] at h
      split at h
      · cases h
      · rename_i hlabel
        exact .plain hplain (Bool.eq_false_iff.mpr hlabel)
  · intro h
    cases h with
    | plain hdot hlabel => rw [fixed?_plain hdot, if_neg (Bool.eq_false_iff.mp hlabel)]
    | dotted hname => rw [fixed?_dotted, if_neg (Bool.eq_false_iff.mp hname)]

/-- A label has a name of its own exactly when it is not nameless. -/
theorem exists_fixedName_iff {label : String} :
    (∃ text, FixedName label text) ↔ ¬ Nameless label := by
  rw [← fixed?_eq_none_iff, ← ne_eq, Option.ne_none_iff_exists']
  simp only [fixed?_eq_some_iff]

/-- A name of a label's own is an identifier. -/
theorem FixedName.isIdentifier_text {label text : String} (h : FixedName label text) :
    isIdentifier text = true := by
  cases h with
  | plain hlabel => exact hlabel
  | dotted hname =>
      have hstart : isIdentifier sectionStart = true := by decide
      exact isIdentifier_append hstart fun c hc => isIdentifierTail_of_mem hname hc

/-- A label that has a name of its own is declared under it as it is exactly when it is an
identifier. -/
theorem FixedName.eq_label_iff {label text : String} (h : FixedName label text) :
    text = label ↔ isIdentifier label = true := by
  constructor
  · rintro rfl
    exact h.isIdentifier_text
  · intro hlabel
    cases h with
    | plain => rfl
    | dotted =>
        rw [isIdentifier_dotted] at hlabel
        cases hlabel

theorem Nameless.isIdentifier_label {label : String} (h : Nameless label) :
    isIdentifier label = false := by
  cases h with
  | plain hdot hlabel => exact hlabel
  | dotted hname => exact isIdentifier_dotted _

/-! ## What the namer does -/

variable {σ : Type} [DigitSource σ]

/-- A label with a name of its own leaves the namer as it was. -/
theorem nameOf_of_fixedName {label text : String} (h : FixedName label text) (namer : Namer σ) :
    namer.nameOf label = (⟨text, label⟩, namer) := by
  rw [nameOf, fixed?_eq_some_iff.mpr h]

/-- A nameless label is given a generated name. -/
theorem nameOf_of_nameless {label : String} (h : Nameless label) (namer : Namer σ) :
    namer.nameOf label = (⟨namer.fresh.1, label⟩, namer.fresh.2) := by
  rw [nameOf, fixed?_eq_none_iff.mpr h]

theorem draw_eq (namer : Namer σ) :
    namer.draw
      = (generatedText (drawDigits namer.source suffixLength).1 namer.count,
        { namer with source := (drawDigits namer.source suffixLength).2 }) :=
  rfl

/-- A generated name takes its digits from the source and its count from the namer, which it
advances. -/
theorem fresh_eq (namer : Namer σ) :
    namer.fresh
      = (generatedText (drawDigits namer.source suffixLength).1 (namer.count + 1),
        { source := (drawDigits namer.source suffixLength).2, count := namer.count + 1 }) :=
  rfl

theorem isIdentifier_draw (namer : Namer σ) : isIdentifier namer.draw.1 = true := by
  rw [draw_eq]
  exact isIdentifier_generatedText (fun _ hc => isHex_of_mem_drawDigits hc) _

theorem isIdentifier_fresh (namer : Namer σ) : isIdentifier namer.fresh.1 = true := by
  rw [fresh_eq]
  exact isIdentifier_generatedText (fun _ hc => isHex_of_mem_drawDigits hc) _

/-- Whatever a label is, the name that is given to it is an identifier. -/
theorem isIdentifier_nameOf (namer : Namer σ) (label : String) :
    isIdentifier (namer.nameOf label).1.display = true := by
  by_cases h : Nameless label
  · rw [nameOf_of_nameless h]
    exact isIdentifier_fresh namer
  · obtain ⟨text, htext⟩ := exists_fixedName_iff.mpr h
    rw [nameOf_of_fixedName htext]
    exact htext.isIdentifier_text

/-- A label is declared as it is exactly when it is an identifier. -/
theorem nameOf_eq_label_iff (namer : Namer σ) (label : String) :
    (namer.nameOf label).1.display = label ↔ isIdentifier label = true := by
  by_cases h : Nameless label
  · -- a nameless label is no identifier, and what is generated for it is one
    have hlabel := h.isIdentifier_label
    have hname := isIdentifier_nameOf namer label
    constructor
    · intro heq
      rwa [heq] at hname
    · intro hidentifier
      rw [hlabel] at hidentifier
      cases hidentifier
  · obtain ⟨text, htext⟩ := exists_fixedName_iff.mpr h
    rw [nameOf_of_fixedName htext]
    exact htext.eq_label_iff

end ByteEmbed.Namer
