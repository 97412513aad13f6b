import Mathlib.Data.List.Basic
import ByteEmbed.Proofs.Program.FileTree

/-!
# ByteEmbed.Proofs.Program.Paths — the last name of a path as it is written.

A path that leads to an entry ends in the name of that entry (`LeadsTo.exists_last`): it does not
end in a slash, and its last name is no step to a directory.  So two texts of which one is the other
with an ending never lead to the same entry (`LeadsTo.ne_of_append`).
-/

namespace ByteEmbed.FileTree

variable {tree tree' : FileTree} {workingDirectory : Path}

/-! ## Pieces -/

theorem pieces_of_notMem {text : List Char} (h : '/' ∉ text) : pieces text = [text] := by
  induction text with
  | nil => rfl
  | cons c text ih =>
      have hc : c ≠ '/' := fun hc => h (by simp [hc])
      have htext : pieces text = [text] := ih fun hmem => h (List.mem_cons_of_mem c hmem)
      simp [pieces, htext]

/-- An ending without slashes is added to the last piece, which is empty only if the text is or ends
in a slash. -/
theorem exists_pieces {ending : List Char} (h : '/' ∉ ending) (text : List Char) :
    ∃ firsts last, pieces text = firsts ++ [last]
      ∧ pieces (text ++ ending) = firsts ++ [last ++ ending]
      ∧ (text ≠ [] → text.getLast? ≠ some '/' → last ≠ []) := by
  induction text with
  | nil => exact ⟨[], [], rfl, pieces_of_notMem h, fun hnil => absurd rfl hnil⟩
  | cons c text ih =>
      obtain ⟨firsts, last, htext, happend, hlast⟩ := ih
      have hrest : (c :: text).getLast? ≠ some '/' → text ≠ [] → text.getLast? ≠ some '/' := by
        intro hc hne
        rwa [List.getLast?_cons_of_ne_nil hne] at hc
      by_cases hc : c = '/'
      · subst hc
        refine ⟨[] :: firsts, last, by simp [pieces, htext], by simp [pieces, happend], ?_⟩
        intro _ hslash
        have hne : text ≠ [] := by
          rintro rfl
          exact hslash rfl
        exact hlast hne (hrest hslash hne)
      · cases firsts with
        | nil =>
            refine ⟨[], c :: last, ?_, ?_, fun _ _ => List.cons_ne_nil c last⟩
            · simp [pieces, htext]
            · simp [pieces, happend]
        | cons first firsts =>
            refine ⟨(c :: first) :: firsts, last, ?_, ?_, fun _ hslash => ?_⟩
            · simp [pieces, htext]
            · simp [pieces, happend]
            · have hne : text ≠ [] := by
                rintro rfl
                simp [pieces] at htext
              exact hlast hne (hrest hslash hne)

theorem getLast?_namesOf {text : String} {firsts : List (List Char)} {last : List Char}
    (h : pieces text.toList = firsts ++ [last]) (hne : last ≠ []) :
    (namesOf text).getLast? = some (String.ofList last) := by
  have hempty : last.isEmpty = false := by simpa using hne
  rw [namesOf, h, List.filter_append, List.map_append]
  simp [hempty]

/-! ## Entries -/

/-- The entry that names lead to has the last of them. -/
theorem getLast?_of_follow {mustBeDirectory mustBe : Bool} {current path : Path}
    {names : List String}
    (h : tree.follow mustBeDirectory current names = .ok (.named path mustBe)) :
    mustBe = mustBeDirectory
      ∧ ∃ name, names.getLast? = some name ∧ path.getLast? = some name := by
  fun_induction follow tree mustBeDirectory current names with
  | case1 current => cases h
  | case2 current names ih =>
      obtain ⟨hmust, name, hnames, hpath⟩ := ih h
      exact ⟨hmust, name, by simp [List.getLast?_cons, hnames], hpath⟩
  | case3 current names ih =>
      obtain ⟨hmust, name, hnames, hpath⟩ := ih h
      exact ⟨hmust, name, by simp [List.getLast?_cons, hnames], hpath⟩
  | case4 current name names hdot hdots hlong => cases h
  | case5 current name names hdot hdots hlong hlast =>
      cases h
      obtain rfl := List.isEmpty_iff.mp hlast
      exact ⟨rfl, name, rfl, by simp⟩
  | case6 current name names hdot hdots hlong hlast hentry ih =>
      obtain ⟨hmust, other, hnames, hpath⟩ := ih h
      exact ⟨hmust, other, by simp [List.getLast?_cons, hnames], hpath⟩
  | case7 current name names hdot hdots hlong hlast bytes hentry => cases h
  | case8 current name names hdot hdots hlong hlast hentry => cases h

/-- A path that leads to an entry ends in its name. -/
theorem LeadsTo.exists_last {text : String} {path : Path}
    (h : tree.LeadsTo workingDirectory text path) :
    text.toList ≠ [] ∧ text.toList.getLast? ≠ some '/'
      ∧ path.getLast? = (namesOf text).getLast? := by
  have hplace := h.place
  unfold resolve at hplace
  split at hplace
  · cases hplace
  · rename_i hempty
    split at hplace
    · cases hplace
    · obtain ⟨hslash, name, hnames, hpath⟩ := getLast?_of_follow hplace
      refine ⟨?_, ?_, hpath.trans hnames.symm⟩
      · simpa using hempty
      · intro hlast
        rw [hlast] at hslash
        simp at hslash

/-- A text and the same text with an ending never lead to the same entry. -/
theorem LeadsTo.ne_of_append {text ending : String} {path path' : Path} (hne : ending ≠ "")
    (hslash : '/' ∉ ending.toList) (h : tree.LeadsTo workingDirectory text path)
    (h' : tree'.LeadsTo workingDirectory (text ++ ending) path') : path ≠ path' := by
  rintro rfl
  obtain ⟨htext, hend, hpath⟩ := h.exists_last
  obtain ⟨-, -, hpath'⟩ := h'.exists_last
  obtain ⟨firsts, last, hpieces, happend, hlast⟩ := exists_pieces hslash text.toList
  rw [← String.toList_append] at happend
  have hlast := hlast htext hend
  rw [getLast?_namesOf hpieces hlast] at hpath
  rw [hpath, getLast?_namesOf happend (by simp [hlast]), Option.some_inj,
    String.ofList_inj] at hpath'
  exact hne (String.toList_eq_nil_iff.mp (by simpa using hpath'))

end ByteEmbed.FileTree
