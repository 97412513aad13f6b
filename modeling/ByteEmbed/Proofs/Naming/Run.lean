import ByteEmbed.Proofs.Naming.Label

/-!
# ByteEmbed.Proofs.Naming.Run — what keeps the names of a run apart.

A namer answers calls: a label is resolved, or a name is generated outright.  The invariant of a run
is the count.  Every name that is generated from here on carries a count past the one the namer has
now (`IsAnswer`), so it differs from every name generated before, as long as the count does not run
over.  A name that is not generated is a function of its label, and which labels share one can be
told (`SameSpelling`); one of them may also be spelled like a generated name by chance, and that is
the only way left for two answers to agree (`answers_keepsApart`).
-/

namespace ByteEmbed.Namer

/-! ## Calls and answers -/

/-- What a namer is asked for: the name of a label, or a name for nothing. -/
inductive Call where
  | label (text : String)
  | anonymous
deriving DecidableEq, Repr

/-- Whether the answer to a call is a generated name. -/
def Call.isGenerated : Call → Bool
  | label text => (fixed? text).isNone
  | anonymous => true

/-- How many of some calls are answered by generated names. -/
def generations (calls : List Call) : Nat := calls.countP Call.isGenerated

variable {σ : Type} [DigitSource σ]

/-- The text that a call is answered with, and the namer after it. -/
def answer (namer : Namer σ) : Call → String × Namer σ
  | .label text => ((namer.nameOf text).1.display, (namer.nameOf text).2)
  | .anonymous => namer.fresh

/-- Calls made one after the other, each with the text it is answered with. -/
def answers (namer : Namer σ) : List Call → List (Call × String)
  | [] => []
  | call :: calls => (call, (namer.answer call).1) :: answers (namer.answer call).2 calls

/-- The generated names among some answers. -/
def generatedTexts (answered : List (Call × String)) : List String :=
  (answered.filter fun entry => entry.1.isGenerated).map Prod.snd

theorem generatedTexts_cons_of_generated {entry : Call × String}
    (h : entry.1.isGenerated = true) (answered : List (Call × String)) :
    generatedTexts (entry :: answered) = entry.2 :: generatedTexts answered := by
  simp [generatedTexts, h]

theorem generatedTexts_cons_of_fixed {entry : Call × String} (h : entry.1.isGenerated = false)
    (answered : List (Call × String)) :
    generatedTexts (entry :: answered) = generatedTexts answered := by
  simp [generatedTexts, h]

theorem isGenerated_label_iff {label : String} :
    (Call.label label).isGenerated = true ↔ Nameless label := by
  rw [Call.isGenerated, Option.isNone_iff_eq_none, fixed?_eq_none_iff]

/-- A call is answered by a label's own name, and the namer stays, or by a name that is generated
with the count that the namer has then. -/
theorem answer_cases (namer : Namer σ) (call : Call) :
    (∃ label text, call = .label label ∧ FixedName label text
      ∧ namer.answer call = (text, namer))
    ∨ (call.isGenerated = true ∧ ∃ suffix later, suffix.length = suffixLength
      ∧ later.count = namer.count + 1
      ∧ namer.answer call = (generatedText suffix later.count, later)) := by
  have hfresh : ∃ suffix later, suffix.length = suffixLength ∧ later.count = namer.count + 1
      ∧ namer.fresh = (generatedText suffix later.count, later) :=
    ⟨(drawDigits namer.source suffixLength).1,
      { source := (drawDigits namer.source suffixLength).2, count := namer.count + 1 },
      length_drawDigits namer.source suffixLength, rfl, fresh_eq namer⟩
  cases call with
  | label label =>
      by_cases h : Nameless label
      · refine Or.inr ⟨isGenerated_label_iff.mpr h, ?_⟩
        rw [answer, nameOf_of_nameless h]
        exact hfresh
      · obtain ⟨text, htext⟩ := exists_fixedName_iff.mpr h
        refine Or.inl ⟨label, text, rfl, htext, ?_⟩
        rw [answer, nameOf_of_fixedName htext]
  | anonymous => exact Or.inr ⟨rfl, hfresh⟩

theorem isGenerated_of_fixedName {label text : String} (h : FixedName label text) :
    (Call.label label).isGenerated = false := by
  rw [Call.isGenerated, fixed?_eq_some_iff.mpr h]
  rfl

/-! ## The count -/

/-- A count goes up by one, as long as it fits its word. -/
theorem toNat_succ {count : UInt32} (h : count.toNat + 1 < UInt32.size) :
    (count + 1).toNat = count.toNat + 1 := by
  rw [UInt32.toNat_add]
  exact Nat.mod_eq_of_lt h

omit [DigitSource σ] in
/-- How many names a namer has handed out when it has answered a call, and when it answers more. -/
theorem room_of_generated {namer later : Namer σ} {call : Call} {calls : List Call}
    (hcall : call.isGenerated = true) (hcount : later.count = namer.count + 1)
    (hroom : namer.count.toNat + generations (call :: calls) < UInt32.size) :
    later.count.toNat = namer.count.toNat + 1
      ∧ later.count.toNat + generations calls < UInt32.size := by
  rw [generations, List.countP_cons, hcall, if_pos rfl] at hroom
  have hlater : later.count.toNat = namer.count.toNat + 1 := by
    rw [hcount]
    exact toNat_succ (by omega)
  rw [hlater, generations]
  exact ⟨rfl, by omega⟩

theorem generations_cons_of_fixed {call : Call} (h : call.isGenerated = false)
    (calls : List Call) : generations (call :: calls) = generations calls := by
  rw [generations, List.countP_cons_of_neg (Bool.eq_false_iff.mp h)]
  rfl

/-- An answer of a namer that has handed out `handedOut` names, or of one that goes on from it. -/
inductive IsAnswer (handedOut : Nat) : Call × String → Prop
  | fixed {label text : String} (fixedName : FixedName label text) :
      IsAnswer handedOut (.label label, text)
  | generated {call : Call} {suffix : List Char} {count : UInt32}
      (isGenerated : call.isGenerated = true) (length_suffix : suffix.length = suffixLength)
      (later : handedOut < count.toNat) : IsAnswer handedOut (call, generatedText suffix count)

theorem IsAnswer.mono {handedOut handedOut' : Nat} {entry : Call × String}
    (h : IsAnswer handedOut entry) (hle : handedOut' ≤ handedOut) : IsAnswer handedOut' entry := by
  cases h with
  | fixed hfixed => exact .fixed hfixed
  | generated hcall hlength hlater =>
      exact .generated hcall hlength (Nat.lt_of_le_of_lt hle hlater)

/-- Every answer of a run is a label's own name, or it is generated with a count past the one at
which the run began. -/
theorem isAnswer_of_mem {namer : Namer σ} {calls : List Call}
    (hroom : namer.count.toNat + generations calls < UInt32.size) {entry : Call × String}
    (h : entry ∈ namer.answers calls) : IsAnswer namer.count.toNat entry := by
  induction calls generalizing namer with
  | nil => cases h
  | cons call calls ih =>
      rw [answers] at h
      rcases answer_cases namer call with
        ⟨label, text, rfl, hfixed, hanswer⟩ | ⟨hcall, suffix, later, hlength, hcount, hanswer⟩
      · rw [generations_cons_of_fixed (isGenerated_of_fixedName hfixed)] at hroom
        rw [hanswer] at h
        rcases List.mem_cons.mp h with rfl | h
        · exact .fixed hfixed
        · exact ih hroom h
      · obtain ⟨hlater, hroom⟩ := room_of_generated hcall hcount hroom
        rw [hanswer] at h
        rcases List.mem_cons.mp h with rfl | h
        · exact .generated hcall hlength (by omega)
        · exact (ih hroom h).mono (by omega)

/-- A generated name is none of the names generated after it. -/
theorem generatedText_notMem {handedOut : Nat} {answered : List (Call × String)}
    (h : ∀ entry ∈ answered, IsAnswer handedOut entry) {suffix : List Char} {count : UInt32}
    (hlength : suffix.length = suffixLength) (hcount : count.toNat ≤ handedOut) :
    generatedText suffix count ∉ generatedTexts answered := by
  intro hmem
  obtain ⟨entry, hentry, htext⟩ := List.mem_map.mp hmem
  obtain ⟨hentry, hgenerated⟩ := List.mem_filter.mp hentry
  cases h entry hentry with
  | fixed hfixed =>
      rw [isGenerated_of_fixedName hfixed] at hgenerated
      cases hgenerated
  | generated hcall hlength' hlater =>
      have heq := count_of_generatedText_eq (hlength'.trans hlength.symm) htext
      rw [heq] at hlater
      omega

/-- Generated names are pairwise distinct. -/
theorem nodup_generatedTexts {namer : Namer σ} {calls : List Call}
    (hroom : namer.count.toNat + generations calls < UInt32.size) :
    (generatedTexts (namer.answers calls)).Nodup := by
  induction calls generalizing namer with
  | nil => exact List.nodup_nil
  | cons call calls ih =>
      rw [answers]
      rcases answer_cases namer call with
        ⟨label, text, rfl, hfixed, hanswer⟩ | ⟨hcall, suffix, later, hlength, hcount, hanswer⟩
      · have hkind := isGenerated_of_fixedName hfixed
        rw [generations_cons_of_fixed hkind] at hroom
        rw [hanswer, generatedTexts_cons_of_fixed hkind]
        exact ih hroom
      · obtain ⟨-, hroom⟩ := room_of_generated hcall hcount hroom
        rw [hanswer, generatedTexts_cons_of_generated hcall, List.nodup_cons]
        refine ⟨?_, ih hroom⟩
        exact generatedText_notMem (fun _ => isAnswer_of_mem hroom) hlength (Nat.le_refl _)

/-! ## Answers that agree -/

/-- Two labels have the same name of their own: they are one identifier, they name sections that
normalise alike, or one is spelled like the name of the section that the other one names. -/
inductive SameSpelling : String → String → Prop
  | identifier {label : String} (identifier : isIdentifier label = true) :
      SameSpelling label label
  | sections {name name' : List Char} (identifier : isIdentifier (normalized name) = true)
      (alike : normalized name = normalized name') :
      SameSpelling (String.ofList ('.' :: name)) (String.ofList ('.' :: name'))
  | plainFirst {name : List Char} (identifier : isIdentifier (normalized name) = true) :
      SameSpelling (sectionStart ++ normalized name) (String.ofList ('.' :: name))
  | plainSecond {name : List Char} (identifier : isIdentifier (normalized name) = true) :
      SameSpelling (String.ofList ('.' :: name)) (sectionStart ++ normalized name)

theorem FixedName.unique {label text text' : String} (h : FixedName label text)
    (h' : FixedName label text') : text = text' := by
  rw [← fixed?_eq_some_iff] at h h'
  exact Option.some.inj (h.symm.trans h')

theorem append_left_cancel {start text text' : String} (h : start ++ text = start ++ text') :
    text = text' := by
  have hchars := congrArg String.toList h
  rw [String.toList_append, String.toList_append] at hchars
  exact String.toList_inj.mp (List.append_cancel_left hchars)

theorem sameSpelling_iff {label label' : String} :
    SameSpelling label label' ↔ ∃ text, FixedName label text ∧ FixedName label' text := by
  have hsection {name : List Char} (h : isIdentifier (normalized name) = true) :
      isIdentifier (sectionStart ++ normalized name) = true :=
    (FixedName.dotted h).isIdentifier_text
  constructor
  · intro h
    cases h with
    | identifier h => exact ⟨_, .plain h, .plain h⟩
    | sections h alike =>
        have hfixed := FixedName.dotted (alike ▸ h)
        rw [← alike] at hfixed
        exact ⟨_, .dotted h, hfixed⟩
    | plainFirst h => exact ⟨_, .plain (hsection h), .dotted h⟩
    | plainSecond h => exact ⟨_, .dotted h, .plain (hsection h)⟩
  · rintro ⟨text, h, h'⟩
    generalize htext : text = text' at h'
    cases h with
    | plain hlabel =>
        cases h' with
        | plain hlabel' =>
            rw [htext]
            exact .identifier hlabel'
        | dotted hname' =>
            rw [htext]
            exact .plainFirst hname'
    | dotted hname =>
        cases h' with
        | plain hlabel' =>
            rw [← htext]
            exact .plainSecond hname
        | dotted hname' => exact .sections hname (append_left_cancel htext)

/-- When two resolved labels have the same name: neither name is generated and the labels have the
same spelling, or one of them is generated and the other label is an identifier that is spelled like
it. -/
def Coincides (label label' text text' : String) : Prop :=
  (¬ Nameless label ∧ ¬ Nameless label' ∧ SameSpelling label label')
  ∨ (Nameless label ∧ isIdentifier label' = true ∧ label' = text)
  ∨ (Nameless label' ∧ isIdentifier label = true ∧ label = text')

theorem not_nameless_of_fixedName {label text : String} (h : FixedName label text) :
    ¬ Nameless label :=
  exists_fixedName_iff.mp ⟨text, h⟩

/-- An own name that is spelled like a generated one is that of a plain label. -/
theorem fixedName_generatedText_iff {label : String} {suffix : List Char} {count : UInt32} :
    FixedName label (generatedText suffix count)
      ↔ isIdentifier label = true ∧ label = generatedText suffix count := by
  constructor
  · intro h
    generalize htext : generatedText suffix count = text at h
    cases h with
    | plain hlabel => exact ⟨hlabel, rfl⟩
    | dotted hname => exact absurd htext (generatedText_ne_section suffix count _)
  · rintro ⟨hlabel, heq⟩
    rw [← heq]
    exact .plain hlabel

/-- Two answers that are not both generated agree exactly in these ways. -/
theorem eq_iff_coincides {handedOut : Nat} {label label' text text' : String}
    (h : IsAnswer handedOut (.label label, text)) (h' : IsAnswer handedOut (.label label', text'))
    (hdiffer : Nameless label → Nameless label' → text ≠ text') :
    text = text' ↔ Coincides label label' text text' := by
  cases h with
  | fixed hfixed =>
      have hnot := not_nameless_of_fixedName hfixed
      cases h' with
      | fixed hfixed' =>
          have hnot' := not_nameless_of_fixedName hfixed'
          simp only [Coincides, hnot, hnot', sameSpelling_iff, false_and, or_false,
            not_false_eq_true, true_and]
          constructor
          · rintro rfl
            exact ⟨text, hfixed, hfixed'⟩
          · rintro ⟨spelling, hspelling, hspelling'⟩
            rw [hfixed.unique hspelling, hfixed'.unique hspelling']
      | generated hcall =>
          have hnameless' := isGenerated_label_iff.mp hcall
          simp only [Coincides, hnot, hnameless', not_true_eq_false, false_and, and_false, false_or,
            true_and]
          rw [← fixedName_generatedText_iff]
          constructor
          · rintro rfl
            exact hfixed
          · exact hfixed.unique
  | generated hcall =>
      have hnameless := isGenerated_label_iff.mp hcall
      cases h' with
      | fixed hfixed' =>
          have hnot' := not_nameless_of_fixedName hfixed'
          simp only [Coincides, hnot', hnameless, not_true_eq_false, false_and, false_or, or_false,
            true_and]
          rw [← fixedName_generatedText_iff]
          constructor
          · rintro rfl
            exact hfixed'
          · exact fun h => h.unique hfixed'
      | generated hcall' =>
          have hnameless' := isGenerated_label_iff.mp hcall'
          have hne := hdiffer hnameless hnameless'
          simp only [Coincides, hne, hnameless, hnameless', not_true_eq_false, false_and, true_and,
            false_or, false_iff, not_or, not_and]
          constructor
          · intro hlabel' _
            exact absurd hlabel' (Bool.eq_false_iff.mp hnameless'.isIdentifier_label)
          · intro hlabel _
            exact absurd hlabel (Bool.eq_false_iff.mp hnameless.isIdentifier_label)

/-! ## Whole runs -/

/-- The names of a run are kept apart: no generated name comes twice or is among those `taken`
before, and two labels have the same name only in the ways that are told. -/
structure KeepsApart (taken : List String) (answered : List (Call × String)) : Prop where
  distinct : (taken ++ generatedTexts answered).Nodup
  coincides : answered.Pairwise fun first second =>
    ∀ label label', first.1 = .label label → second.1 = .label label' →
      (first.2 = second.2 ↔ Coincides label label' first.2 second.2)

theorem mem_generatedTexts {answered : List (Call × String)} {label text : String}
    (h : (Call.label label, text) ∈ answered) (hlabel : Nameless label) :
    text ∈ generatedTexts answered :=
  List.mem_map.mpr ⟨_, List.mem_filter.mpr ⟨h, isGenerated_label_iff.mpr hlabel⟩, rfl⟩

/-- Two labels of a run, in the order in which they are resolved. -/
theorem pairwise_coincides {answered : List (Call × String)} {handedOut : Nat}
    (hanswers : ∀ entry ∈ answered, IsAnswer handedOut entry)
    (hdistinct : (generatedTexts answered).Nodup) :
    answered.Pairwise fun first second =>
      ∀ label label', first.1 = .label label → second.1 = .label label' →
        (first.2 = second.2 ↔ Coincides label label' first.2 second.2) := by
  induction answered with
  | nil => exact List.Pairwise.nil
  | cons entry answered ih =>
      have hrest : ∀ later ∈ answered, IsAnswer handedOut later :=
        fun later hlater => hanswers later (List.mem_cons_of_mem _ hlater)
      have hdistinct_rest : (generatedTexts answered).Nodup := by
        cases hentry : entry.1.isGenerated with
        | true =>
            rw [generatedTexts_cons_of_generated hentry] at hdistinct
            exact (List.nodup_cons.mp hdistinct).2
        | false =>
            rw [generatedTexts_cons_of_fixed hentry] at hdistinct
            exact hdistinct
      refine List.Pairwise.cons ?_ (ih hrest hdistinct_rest)
      rintro ⟨_, text'⟩ hlater label label' hlabel rfl
      obtain ⟨_, text⟩ := entry
      cases hlabel
      refine eq_iff_coincides (hanswers _ List.mem_cons_self) (hrest _ hlater) ?_
      intro hnameless hnameless'
      -- both are generated, so the second one is in the list that the first one heads
      rw [generatedTexts_cons_of_generated (isGenerated_label_iff.mpr hnameless),
        List.nodup_cons] at hdistinct
      rintro rfl
      exact hdistinct.1 (mem_generatedTexts hlater hnameless')

/-- The answers of a run are kept apart, and apart from names that were generated before it. -/
theorem answers_keepsApart {namer : Namer σ} {calls : List Call}
    (hroom : namer.count.toNat + generations calls < UInt32.size) {taken : List String}
    (htaken : taken.Nodup)
    (hearlier : ∀ text ∈ taken, ∃ suffix count, text = generatedText suffix count
      ∧ suffix.length = suffixLength ∧ count.toNat ≤ namer.count.toNat) :
    KeepsApart taken (namer.answers calls) := by
  have hanswers : ∀ entry ∈ namer.answers calls, IsAnswer namer.count.toNat entry :=
    fun _ => isAnswer_of_mem hroom
  have hdistinct := nodup_generatedTexts hroom
  refine ⟨List.nodup_append.mpr ⟨htaken, hdistinct, ?_⟩, pairwise_coincides hanswers hdistinct⟩
  rintro _ htext _ hlater rfl
  obtain ⟨suffix, count, rfl, hlength, hcount⟩ := hearlier _ htext
  exact generatedText_notMem hanswers hlength hcount hlater

end ByteEmbed.Namer
