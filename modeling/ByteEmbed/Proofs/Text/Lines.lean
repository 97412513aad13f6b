import ByteEmbed.Text.Lines

/-!
# ByteEmbed.Proofs.Text.Lines — the lines of joined lines.

Lines that are joined by line feeds are read back, up to two things.  A line in front of a line
feed loses a carriage return at its end (`withoutReturn`), and an empty last line is no line: it
only says that the line before it was ended.
-/

namespace ByteEmbed.Text

/-- A line without the carriage return at its end, if it has one. -/
def withoutReturn (line : List Char) : List Char :=
  if line.getLast? = some '\r' then line.dropLast else line

theorem withoutReturn_cons_cons (c d : Char) (line : List Char) :
    withoutReturn (c :: d :: line) = c :: withoutReturn (d :: line) := by
  unfold withoutReturn
  rw [List.getLast?_cons_cons, List.dropLast_cons_cons]
  split
  · rfl
  · rfl

theorem withoutReturn_snoc_of_ne {c : Char} (h : c ≠ '\r') (line : List Char) :
    withoutReturn (line ++ [c]) = line ++ [c] := by
  unfold withoutReturn
  rw [List.getLast?_concat, if_neg]
  intro hc
  exact h (Option.some.inj hc)

theorem linesFrom_of_ne {c : Char} {text : List Char} (hfeed : c ≠ '\n')
    (hreturn : c = '\r' → text.head? ≠ some '\n') (read : String) :
    linesFrom read (c :: text) = linesFrom (read.push c) text := by
  rw [linesFrom]
  · exact hfeed
  · intro rest hc htext
    apply hreturn hc
    rw [htext, List.head?_cons]

theorem push_append_ofList (read : String) (c : Char) (line : List Char) :
    read.push c ++ String.ofList line = read ++ String.ofList (c :: line) := by
  rw [← String.toList_inj]
  simp

/-- A line that a line feed ends, when `read` has been read of it. -/
theorem linesFrom_line {line : List Char} (h : '\n' ∉ line) (read : String) (text : List Char) :
    linesFrom read (line ++ '\n' :: text)
      = (read ++ String.ofList (withoutReturn line)) :: linesFrom "" text := by
  induction line generalizing read with
  | nil => simp [linesFrom, withoutReturn]
  | cons c line ih =>
      have hfeed : c ≠ '\n' := fun hc => h (hc ▸ List.mem_cons_self)
      have hrest : '\n' ∉ line := fun hmem => h (List.mem_cons_of_mem _ hmem)
      cases line with
      | nil =>
          by_cases hc : c = '\r'
          · -- the carriage return belongs to the line end
            simp [hc, linesFrom, withoutReturn]
          · rw [List.cons_append, linesFrom_of_ne hfeed fun hr => absurd hr hc, ih hrest]
            simp [withoutReturn, hc]
      | cons d line =>
          -- a carriage return here would stand inside the line, and stays
          have hd : d ≠ '\n' := fun hd => hrest (hd ▸ List.mem_cons_self)
          rw [List.cons_append, linesFrom_of_ne hfeed (by intro _; simpa using hd), ih hrest,
            withoutReturn_cons_cons, push_append_ofList]

/-- A line that the end of the text ends. -/
theorem linesFrom_last {line : List Char} (h : '\n' ∉ line) (read : String) :
    linesFrom read line
      = if read ++ String.ofList line = "" then [] else [read ++ String.ofList line] := by
  induction line generalizing read with
  | nil => simp [linesFrom]
  | cons c line ih =>
      have hfeed : c ≠ '\n' := fun hc => h (hc ▸ List.mem_cons_self)
      have hrest : '\n' ∉ line := fun hmem => h (List.mem_cons_of_mem _ hmem)
      have hhead : line.head? ≠ some '\n' := fun hhead => hrest (List.mem_of_mem_head? hhead)
      rw [linesFrom_of_ne hfeed fun _ => hhead, ih hrest, push_append_ofList]

/-- Joined lines are read back: each that is ended loses a carriage return at its end, and an empty
last line is no line. -/
theorem lines_intercalate {init : List String} {last : String}
    (hinit : ∀ line ∈ init, '\n' ∉ line.toList) (hlast : '\n' ∉ last.toList) :
    lines ("\n".intercalate (init ++ [last]))
      = init.map (fun line => String.ofList (withoutReturn line.toList))
        ++ if last = "" then [] else [last] := by
  unfold lines
  induction init with
  | nil =>
      rw [List.nil_append, String.intercalate_singleton, linesFrom_last hlast]
      simp
  | cons line init ih =>
      have hline := hinit line List.mem_cons_self
      rw [List.cons_append, String.intercalate_cons_of_ne_nil (by simp)]
      have htext : (line ++ "\n" ++ "\n".intercalate (init ++ [last])).toList
          = line.toList ++ '\n' :: ("\n".intercalate (init ++ [last])).toList := by
        simp
      rw [htext, linesFrom_line hline,
        ih fun l hl => hinit l (List.mem_cons_of_mem _ hl)]
      simp

/-- What holds of one line, and of a line in front of more of them, holds of every text. -/
@[elab_as_elim]
theorem line_induction {motive : List Char → Prop} (last : ∀ line, '\n' ∉ line → motive line)
    (more : ∀ line rest, '\n' ∉ line → motive rest → motive (line ++ '\n' :: rest))
    (text : List Char) : motive text := by
  induction hlength : text.length using Nat.strongRecOn generalizing text with
  | ind n ih =>
      by_cases hfeed : '\n' ∈ text
      · obtain ⟨line, rest, rfl, hline⟩ := List.eq_append_cons_of_mem hfeed
        refine more line rest hline (ih rest.length ?_ rest rfl)
        rw [← hlength, List.length_append, List.length_cons]
        omega
      · exact last text hfeed

/-! ## Texts one after the other -/

/-- A text that stops where a line ends: it is empty, or a line feed is its last character. -/
def Ended (text : String) : Prop := text = "" ∨ ∃ start, text = start ++ "\n"

/-- What is left of characters that stop at a line feed stops there as well. -/
theorem getLast?_of_append (start : List Char) {rest : List Char}
    (h : ∀ c, (start ++ rest).getLast? = some c → c = '\n') :
    ∀ c, rest.getLast? = some c → c = '\n' := by
  intro c hc
  apply h
  rw [List.getLast?_append, hc, Option.some_or]

/-- The lines of characters that stop at a line end, and of more behind them, when `read` has been
read of the first line: the end must not fall into a line that has been begun. -/
theorem linesFrom_append {read : String} {text : List Char} (hread : text = [] → read = "")
    (hended : ∀ c, text.getLast? = some c → c = '\n') (more : List Char) :
    linesFrom read (text ++ more) = linesFrom read text ++ linesFrom "" more := by
  induction read, text using linesFrom.induct with
  | case1 read hempty =>
      obtain rfl := hread rfl
      rfl
  | case2 read hempty =>
      obtain rfl := hread rfl
      exact absurd rfl hempty
  | case3 read text ih =>
      have hrest := ih (fun _ => rfl) (getLast?_of_append ['\n'] hended)
      rw [List.cons_append, linesFrom, linesFrom, List.cons_append, hrest]
  | case4 read text ih =>
      have hrest := ih (fun _ => rfl) (getLast?_of_append ['\r', '\n'] hended)
      rw [List.cons_append, List.cons_append, linesFrom, linesFrom, List.cons_append, hrest]
  | case5 read c text hfeed hreturn ih =>
      -- the character is no line feed, so there is more of the text behind it
      have hne : text ≠ [] := by
        rintro rfl
        exact hfeed (hended c rfl)
      obtain ⟨next, rest, rfl⟩ := List.exists_cons_of_ne_nil hne
      have hnext : ∀ later : List Char, c = '\r' → (next :: later).head? ≠ some '\n' := by
        intro later hc hhead
        obtain rfl := Option.some.inj hhead
        exact hreturn rest hc rfl
      have hrest := ih (fun h => absurd h hne) (getLast?_of_append [c] hended)
      show linesFrom read (c :: next :: (rest ++ more)) = _
      rw [linesFrom_of_ne hfeed (hnext (rest ++ more)), linesFrom_of_ne hfeed (hnext rest)]
      exact hrest

/-- The lines of two texts, the first of which stops at a line end. -/
theorem lines_append {text : String} (h : Ended text) (more : String) :
    lines (text ++ more) = lines text ++ lines more := by
  unfold lines
  rw [String.toList_append]
  apply linesFrom_append (fun _ => rfl)
  intro c hc
  rcases h with rfl | ⟨start, rfl⟩
  · cases hc
  · rw [String.toList_append, List.getLast?_append] at hc
    exact (Option.some.inj hc).symm

/-! ## Line ends of the other kind -/

/-- A character as it stands in a text whose line ends have a carriage return. -/
def returned (c : Char) : List Char := if c = '\n' then ['\r', '\n'] else [c]

/-- The text with a carriage return put in front of every line feed. -/
def withReturns (text : String) : String := String.ofList (text.toList.flatMap returned)

theorem returned_of_ne {c : Char} (h : c ≠ '\n') : returned c = [c] := by
  rw [returned, if_neg h]

/-- No line feed is left without the carriage return in front of it. -/
theorem head?_returned (text : List Char) : (text.flatMap returned).head? ≠ some '\n' := by
  cases text with
  | nil => simp
  | cons c text =>
      rw [List.flatMap_cons, returned]
      split
      · simp
      · simpa

/-- A carriage return put in front of a line feed goes with it, unless one stood there before. -/
theorem linesFrom_returned {text : List Char} (h : ¬ ['\r', '\n'] <:+: text) (read : String) :
    linesFrom read (text.flatMap returned) = linesFrom read text := by
  induction read, text using linesFrom.induct with
  | case1 read hempty => rfl
  | case2 read hempty => rfl
  | case3 read text ih =>
      have hrest := ih fun hmem => h (hmem.trans (List.suffix_cons _ _).isInfix)
      rw [List.flatMap_cons, returned, if_pos rfl]
      show linesFrom read ('\r' :: '\n' :: text.flatMap returned) = _
      rw [linesFrom, linesFrom, hrest]
  | case4 read text ih => exact absurd (List.prefix_append ['\r', '\n'] text).isInfix h
  | case5 read c text hfeed hreturn ih =>
      have hrest := ih fun hmem => h (hmem.trans (List.suffix_cons _ _).isInfix)
      have hnext : c = '\r' → text.head? ≠ some '\n' := by
        intro hc hhead
        obtain ⟨rest, rfl⟩ := List.head?_eq_some_iff.mp hhead
        exact hreturn rest hc rfl
      rw [List.flatMap_cons, returned_of_ne hfeed, List.singleton_append,
        linesFrom_of_ne hfeed fun _ => head?_returned text, linesFrom_of_ne hfeed hnext, hrest]

/-- The lines of a text do not depend on the kind of its line ends. -/
theorem lines_withReturns {text : String} (h : ¬ ['\r', '\n'] <:+: text.toList) :
    lines (withReturns text) = lines text := by
  rw [lines, withReturns, String.toList_ofList]
  exact linesFrom_returned h ""

/-! ## Characters of lines -/

/-- A line is made of characters that were read, and holds no line feed. -/
theorem mem_linesFrom {read line : String} {text : List Char} (h : line ∈ linesFrom read text)
    (hread : '\n' ∉ read.toList) :
    '\n' ∉ line.toList ∧ ∀ c ∈ line.toList, c ∈ read.toList ∨ c ∈ text := by
  induction read, text using linesFrom.induct with
  | case1 read hempty =>
      rw [linesFrom, if_pos hempty] at h
      cases h
  | case2 read hempty =>
      rw [linesFrom, if_neg hempty] at h
      obtain rfl := List.mem_singleton.mp h
      exact ⟨hread, fun c hc => Or.inl hc⟩
  | case3 read text ih =>
      rw [linesFrom] at h
      rcases List.mem_cons.mp h with rfl | h
      · exact ⟨hread, fun c hc => Or.inl hc⟩
      · obtain ⟨hfeed, hmem⟩ := ih h (by simp)
        refine ⟨hfeed, fun c hc => Or.inr (List.mem_cons_of_mem _ ?_)⟩
        simpa using hmem c hc
  | case4 read text ih =>
      rw [linesFrom] at h
      rcases List.mem_cons.mp h with rfl | h
      · exact ⟨hread, fun c hc => Or.inl hc⟩
      · obtain ⟨hfeed, hmem⟩ := ih h (by simp)
        refine ⟨hfeed, fun c hc => Or.inr ?_⟩
        exact List.mem_cons_of_mem _ (List.mem_cons_of_mem _ (by simpa using hmem c hc))
  | case5 read c text hfeed hreturn ih =>
      rw [linesFrom] at h
      · have hpush : '\n' ∉ (read.push c).toList := by
          simpa [hread] using Ne.symm hfeed
        obtain ⟨hline, hmem⟩ := ih h hpush
        refine ⟨hline, fun d hd => ?_⟩
        have hread_or := hmem d hd
        rw [String.toList_push, List.mem_append, List.mem_singleton] at hread_or
        rw [List.mem_cons, ← or_assoc]
        exact hread_or
      · exact hfeed
      · exact hreturn

/-- A line of a text is made of characters of the text, and holds no line feed. -/
theorem mem_lines {line text : String} (h : line ∈ lines text) :
    '\n' ∉ line.toList ∧ ∀ c ∈ line.toList, c ∈ text.toList := by
  obtain ⟨hfeed, hmem⟩ := mem_linesFrom h (by simp)
  exact ⟨hfeed, fun c hc => by simpa using hmem c hc⟩

end ByteEmbed.Text
