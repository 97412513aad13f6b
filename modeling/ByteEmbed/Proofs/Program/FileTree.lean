import ByteEmbed.Program.FileTree

/-!
# ByteEmbed.Proofs.Program.FileTree — what writing and removing a file do to a tree.

A path is resolved through directories only, so it leads to the same place in every tree with the
same directories (`resolve_of_sameDirectories`).  Files are written and removed without touching a
directory.  So a path that was written can be read back and removed again, and all that either may
change is the entry that the path leads to (`SameBut`).
-/

namespace ByteEmbed.FileTree

variable {tree tree' : FileTree} {workingDirectory : Path} {text : String}

/-! ## Entries -/

theorem entry?_of_ne_nil {path : Path} (h : path ≠ []) :
    tree.entry? path = tree.entries.lookup path := by
  unfold entry?
  rw [if_neg]
  rwa [List.isEmpty_iff]

theorem lookup_filter_ne (entries : List (Path × Entry)) {path other : Path} (h : other ≠ path) :
    (entries.filter (·.1 != path)).lookup other = entries.lookup other := by
  induction entries with
  | nil => rfl
  | cons head entries ih =>
      obtain ⟨key, entry⟩ := head
      by_cases hkey : key = path
      · subst hkey
        have hother : (other == key) = false := beq_false_of_ne h
        rw [List.filter_cons_of_neg (by simp), ih, List.lookup_cons, hother]
      · rw [List.filter_cons_of_pos (by simpa using hkey), List.lookup_cons, List.lookup_cons, ih]

theorem lookup_filter_self (entries : List (Path × Entry)) (path : Path) :
    (entries.filter (·.1 != path)).lookup path = none := by
  rw [List.lookup_eq_none_iff]
  intro p hp
  rw [bne_comm]
  exact (List.mem_filter.mp hp).2

theorem entry?_erase_self {path : Path} (h : path ≠ []) : entry? (tree.erase path) path = none := by
  rw [entry?_of_ne_nil h]
  exact lookup_filter_self _ _

theorem entry?_erase_of_ne {path other : Path} (h : other ≠ path) :
    entry? (tree.erase path) other = tree.entry? other := by
  by_cases hnil : other = []
  · rw [hnil]
    rfl
  · rw [entry?_of_ne_nil hnil, entry?_of_ne_nil hnil]
    exact lookup_filter_ne _ h

theorem entry?_insert_self {path : Path} (h : path ≠ []) (entry : Entry) :
    entry? (tree.insert path entry) path = some entry := by
  rw [entry?_of_ne_nil h, insert, List.lookup_append, erase, lookup_filter_self]
  simp

theorem entry?_insert_of_ne {path other : Path} (h : other ≠ path) (entry : Entry) :
    entry? (tree.insert path entry) other = tree.entry? other := by
  have herase : entry? (tree.erase path) other = tree.entry? other := entry?_erase_of_ne h
  rw [← herase]
  by_cases hnil : other = []
  · rw [hnil]
    rfl
  · have hother : (other == path) = false := beq_false_of_ne h
    rw [entry?_of_ne_nil hnil, entry?_of_ne_nil hnil, insert, List.lookup_append, List.lookup_cons,
      hother, List.lookup_nil, Option.or_none]

/-- Where nothing stands, nothing is erased. -/
theorem erase_of_entry?_eq_none {path : Path} (h : tree.entry? path = none) :
    tree.erase path = tree := by
  have hnil : path ≠ [] := by
    rintro rfl
    cases h
  rw [entry?_of_ne_nil hnil, List.lookup_eq_none_iff] at h
  rw [erase, List.filter_eq_self.mpr]
  intro p hp
  rw [bne_comm]
  exact h p hp

/-! ## Places -/

/-- Two trees with the same directories. -/
def SameDirectories (tree tree' : FileTree) : Prop :=
  ∀ path, tree.entry? path = some .directory ↔ tree'.entry? path = some .directory

theorem SameDirectories.symm (h : tree.SameDirectories tree') : tree'.SameDirectories tree :=
  fun path => (h path).symm

/-- Erasing what is no directory leaves the directories. -/
theorem sameDirectories_erase {path : Path} (hnil : path ≠ [])
    (h : tree.entry? path ≠ some .directory) : tree.SameDirectories (tree.erase path) := by
  intro other
  by_cases hother : other = path
  · subst hother
    rw [entry?_erase_self hnil]
    exact iff_of_false h (by simp)
  · rw [entry?_erase_of_ne hother]

/-- So does putting a file where there is no directory. -/
theorem sameDirectories_insert {path : Path} (hnil : path ≠ [])
    (h : tree.entry? path ≠ some .directory) (bytes : List UInt8) :
    tree.SameDirectories (tree.insert path (.file bytes)) := by
  intro other
  by_cases hother : other = path
  · subst hother
    rw [entry?_insert_self hnil]
    exact iff_of_false h (by simp)
  · rw [entry?_insert_of_ne hother]

theorem follow_of_sameDirectories (h : tree.SameDirectories tree') {mustBeDirectory : Bool}
    {current : Path} {names : List String} {place : Place}
    (hplace : tree.follow mustBeDirectory current names = .ok place) :
    tree'.follow mustBeDirectory current names = .ok place := by
  fun_induction follow tree mustBeDirectory current names with
  | case1 current => exact hplace
  | case2 current names ih => exact ih hplace
  | case3 current names ih => exact ih hplace
  | case4 current name names hdot hdots hlong => cases hplace
  | case5 current name names hdot hdots hlong hlast =>
      rw [follow, if_neg hlong, if_pos hlast]
      · exact hplace
      · exact hdot
      · exact hdots
  | case6 current name names hdot hdots hlong hlast hentry ih =>
      -- a path goes on through directories only, and those are in both trees
      rw [follow, if_neg hlong, if_neg hlast, (h _).mp hentry]
      · exact ih hplace
      · exact hdot
      · exact hdots
  | case7 current name names hdot hdots hlong hlast bytes hentry => cases hplace
  | case8 current name names hdot hdots hlong hlast hentry => cases hplace

/-- A path leads to the same place in every tree with the same directories. -/
theorem resolve_of_sameDirectories (h : tree.SameDirectories tree') {place : Place}
    (hplace : tree.resolve workingDirectory text = .ok place) :
    tree'.resolve workingDirectory text = .ok place := by
  unfold resolve at hplace ⊢
  split
  · rename_i hempty
    rw [if_pos hempty] at hplace
    cases hplace
  · rename_i hempty
    rw [if_neg hempty] at hplace
    split
    · rename_i hlong
      rw [if_pos hlong] at hplace
      cases hplace
    · rename_i hlong
      rw [if_neg hlong] at hplace
      exact follow_of_sameDirectories h hplace

theorem ne_nil_of_follow {mustBeDirectory mustBe : Bool} {current path : Path}
    {names : List String}
    (h : tree.follow mustBeDirectory current names = .ok (.named path mustBe)) :
    path ≠ [] := by
  fun_induction follow tree mustBeDirectory current names with
  | case1 current => cases h
  | case2 current names ih => exact ih h
  | case3 current names ih => exact ih h
  | case4 current name names hdot hdots hlong => cases h
  | case5 current name names hdot hdots hlong hlast =>
      cases h
      simp
  | case6 current name names hdot hdots hlong hlast hentry ih => exact ih h
  | case7 current name names hdot hdots hlong hlast bytes hentry => cases h
  | case8 current name names hdot hdots hlong hlast hentry => cases h

/-- What is named is no root. -/
theorem ne_nil_of_resolve {path : Path} {mustBe : Bool}
    (h : tree.resolve workingDirectory text = .ok (.named path mustBe)) : path ≠ [] := by
  unfold resolve at h
  split at h
  · cases h
  · split at h
    · cases h
    · exact ne_nil_of_follow h

/-- A path leads to an entry where a file stands or can be put. -/
structure LeadsTo (tree : FileTree) (workingDirectory : Path) (text : String) (path : Path) :
    Prop where
  place : tree.resolve workingDirectory text = .ok (.named path false)
  entry : tree.entry? path ≠ some .directory

theorem LeadsTo.ne_nil {path : Path} (h : tree.LeadsTo workingDirectory text path) : path ≠ [] :=
  ne_nil_of_resolve h.place

theorem LeadsTo.of_sameDirectories (hsame : tree.SameDirectories tree') {path : Path}
    (h : tree.LeadsTo workingDirectory text path) : tree'.LeadsTo workingDirectory text path where
  place := resolve_of_sameDirectories hsame h.place
  entry := fun hentry => h.entry ((hsame path).mpr hentry)

/-! ## Writing -/

/-- A file is written where a path leads to an entry that is no directory. -/
theorem write_eq_ok_iff {bytes : List UInt8} :
    tree.write workingDirectory text bytes = .ok tree'
      ↔ ∃ path, tree.LeadsTo workingDirectory text path
        ∧ tree' = tree.insert path (.file bytes) := by
  constructor
  · intro h
    unfold write at h
    cases hplace : tree.resolve workingDirectory text with
    | error cause =>
        rw [hplace] at h
        cases h
    | ok place =>
        rw [hplace] at h
        cases place with
        | directory path => cases h
        | named path mustBe =>
            cases mustBe with
            | true => cases h
            | false =>
                simp only [bind, Except.bind] at h
                split at h
                · cases h
                · rename_i hentry
                  cases h
                  exact ⟨path, ⟨hplace, hentry⟩, rfl⟩
  · rintro ⟨path, ⟨hplace, hentry⟩, rfl⟩
    unfold write
    rw [hplace]
    simp only [bind, Except.bind]
    rfl

theorem sameDirectories_of_write {bytes : List UInt8}
    (h : tree.write workingDirectory text bytes = .ok tree') : tree.SameDirectories tree' := by
  obtain ⟨target, htarget, rfl⟩ := write_eq_ok_iff.mp h
  exact sameDirectories_insert htarget.ne_nil htarget.entry bytes

/-- Writing leaves every other entry as it was. -/
theorem entry?_of_write {bytes : List UInt8}
    (h : tree.write workingDirectory text bytes = .ok tree') (path : Path) :
    tree'.entry? path = tree.entry? path
      ∨ tree.LeadsTo workingDirectory text path ∧ tree'.entry? path = some (.file bytes) := by
  obtain ⟨target, htarget, rfl⟩ := write_eq_ok_iff.mp h
  by_cases hpath : path = target
  · subst hpath
    exact .inr ⟨htarget, entry?_insert_self htarget.ne_nil _⟩
  · exact .inl (entry?_insert_of_ne hpath _)

/-- What was written is read. -/
theorem read_of_write {bytes : List UInt8}
    (h : tree.write workingDirectory text bytes = .ok tree') :
    tree'.read workingDirectory text = .ok bytes := by
  have hsame := sameDirectories_of_write h
  obtain ⟨target, htarget, rfl⟩ := write_eq_ok_iff.mp h
  have hplace := (htarget.of_sameDirectories hsame).place
  have hentry : entry? (tree.insert target (.file bytes)) target = some (.file bytes) :=
    entry?_insert_self htarget.ne_nil _
  unfold read
  simp only [hplace, hentry]
  rfl

/-! ## Removing -/

/-- Removing takes the entry out that a path leads to. -/
theorem remove_of_leadsTo {path : Path} (h : tree.LeadsTo workingDirectory text path) :
    tree.remove workingDirectory text = tree.erase path := by
  unfold remove bytes?
  rw [h.place]
  cases hentry : tree.entry? path with
  | none =>
      rw [erase_of_entry?_eq_none hentry]
      simp [hentry]
  | some entry =>
      cases entry with
      | directory => exact absurd hentry h.entry
      | file bytes => simp [hentry]

theorem entry?_remove_self {path : Path} (h : tree.LeadsTo workingDirectory text path) :
    entry? (tree.remove workingDirectory text) path = none := by
  rw [remove_of_leadsTo h]
  exact entry?_erase_self h.ne_nil

/-- Nothing is removed where a path leads to no entry that a file can stand in. -/
theorem remove_of_not_leadsTo (h : ∀ path, ¬ tree.LeadsTo workingDirectory text path) :
    tree.remove workingDirectory text = tree := by
  unfold remove
  split
  · rename_i path hplace
    split
    · rename_i hfile
      refine absurd ⟨hplace, fun hentry => ?_⟩ (h path)
      rw [bytes?, hentry] at hfile
      cases hfile
    · rfl
  · rfl

theorem sameDirectories_remove (tree : FileTree) (workingDirectory : Path) (text : String) :
    tree.SameDirectories (tree.remove workingDirectory text) := by
  by_cases h : ∃ path, tree.LeadsTo workingDirectory text path
  · obtain ⟨path, hpath⟩ := h
    rw [remove_of_leadsTo hpath]
    exact sameDirectories_erase hpath.ne_nil hpath.entry
  · rw [remove_of_not_leadsTo (not_exists.mp h)]
    exact fun _ => Iff.rfl

/-- Removing leaves every other entry as it was. -/
theorem entry?_remove (tree : FileTree) (workingDirectory : Path) (text : String) (path : Path) :
    entry? (tree.remove workingDirectory text) path = tree.entry? path
      ∨ tree.LeadsTo workingDirectory text path
        ∧ entry? (tree.remove workingDirectory text) path = none := by
  by_cases h : ∃ target, tree.LeadsTo workingDirectory text target
  · obtain ⟨target, htarget⟩ := h
    rw [remove_of_leadsTo htarget]
    by_cases hpath : path = target
    · subst hpath
      exact .inr ⟨htarget, entry?_erase_self htarget.ne_nil⟩
    · exact .inl (entry?_erase_of_ne hpath)
  · exact .inl (by rw [remove_of_not_leadsTo (not_exists.mp h)])

/-! ## What is left as it was -/

/-- A tree that is as another one was, with the same directories, but for the entries of some
paths. -/
structure SameBut (A : Path → Prop) (tree tree' : FileTree) : Prop where
  directories : tree.SameDirectories tree'
  entries : ∀ path, tree'.entry? path = tree.entry? path ∨ A path

namespace SameBut

variable {A B : Path → Prop} {tree'' : FileTree}

theorem refl (tree : FileTree) : tree.SameBut A tree where
  directories := fun _ => Iff.rfl
  entries := fun _ => .inl rfl

theorem trans (h : tree.SameBut A tree') (h' : tree'.SameBut A tree'') : tree.SameBut A tree'' where
  directories := fun path => (h.directories path).trans (h'.directories path)
  entries := fun path => by
    rcases h'.entries path with heq | hpath
    · rw [heq]
      exact h.entries path
    · exact .inr hpath

theorem mono (h : tree.SameBut A tree') (hsub : ∀ path, A path → B path) :
    tree.SameBut B tree' where
  directories := h.directories
  entries := fun path => (h.entries path).imp_right (hsub path)

end SameBut

/-- Writing a file changes the entry that its path leads to. -/
theorem sameBut_write {bytes : List UInt8}
    (h : tree.write workingDirectory text bytes = .ok tree') :
    tree.SameBut (tree.LeadsTo workingDirectory text) tree' where
  directories := sameDirectories_of_write h
  entries := fun path => (entry?_of_write h path).imp_right And.left

/-- So does removing one. -/
theorem sameBut_remove (tree : FileTree) (workingDirectory : Path) (text : String) :
    tree.SameBut (tree.LeadsTo workingDirectory text) (tree.remove workingDirectory text) where
  directories := sameDirectories_remove tree workingDirectory text
  entries := fun path => (entry?_remove tree workingDirectory text path).imp_right And.left

end ByteEmbed.FileTree
