import ByteEmbed.Proofs.Program.Frames
import ByteEmbed.Proofs.Program.Paths

/-!
# ByteEmbed.Proofs.Program.Cleared — the temporary files of a run, from first to last.

A run that compiles makes a source and an object.  The source is gone before the disassembler is
started, and what the compiler wrote as the object is still there then (`FindsObject`).  When the
listing has been made, or has failed in any way, both are gone, on every machine where files can be
removed and nothing stood under their names before (`sourceWithin_of_fresh`).

Of a source whose writing broke off half way no one takes care (`IsBrokenOff`): the run fails on the
spot, and what was written of it may stay.
-/

namespace ByteEmbed

namespace Sandbox

variable {A : Path → Prop} {P : ToolCall → Prop} {s t : Sandbox}

theorem filesWithout_of_removable {name : String} (h : s.faults.removing name = false) :
    s.filesWithout name = s.files.remove s.workingDirectory name := by
  rw [filesWithout, h]
  rfl

/-- A file that was not there before and is removed again is as it was. -/
theorem Within.removed {name : String}
    (h : s.Within (fun path => A path ∨ s.files.LeadsTo s.workingDirectory name path) P t)
    (hremoval : s.faults.removing name = false)
    (hfresh : ∀ path, s.files.LeadsTo s.workingDirectory name path →
      s.files.entry? path = none) :
    s.Within A P { t with files := t.filesWithout name } := by
  have hfiles := filesWithout_of_removable (h.faults ▸ hremoval : t.faults.removing name = false)
  refine ⟨h.constants, ⟨fun path => ?_, fun path => ?_⟩, h.calls⟩
  · rw [hfiles]
    exact (h.files.directories path).trans (FileTree.sameDirectories_remove _ _ _ path)
  · rw [hfiles]
    by_cases hpath : s.files.LeadsTo s.workingDirectory name path
    · rw [FileTree.entry?_remove_self (h.leadsTo_iff.mpr hpath), hfresh path hpath]
      exact .inl rfl
    · rcases FileTree.entry?_remove t.files t.workingDirectory name path with heq | ⟨hleads, -⟩
      · rw [heq]
        exact (h.files.entries path).imp_right fun hor => hor.resolve_right hpath
      · exact absurd (h.leadsTo_iff.mp hleads) hpath

/-- The writing of a file at a path breaks off half way. -/
def BreaksOff (s : Sandbox) (name : String) (bytes : List UInt8) (path : Path) : Prop :=
  (∃ count cause, s.faults.writing name bytes = some (.breakingOff count cause))
    ∧ s.files.LeadsTo s.workingDirectory name path

/-- A writing that fails leaves everything as it was, unless it has broken off half way. -/
theorem sameBut_write_of_error {name : String} {bytes : List UInt8} {cause : HostError}
    (h : (s.write name bytes).1 = .error cause) :
    s.files.SameBut (s.BreaksOff name bytes) (s.write name bytes).2 := by
  rw [write] at h ⊢
  cases hfault : s.faults.writing name bytes with
  | none =>
      simp only [hfault, put] at h ⊢
      cases hwrite : s.files.write s.workingDirectory name bytes with
      | error cause => exact .refl _
      | ok files => simp [hwrite] at h
  | some fault =>
      cases fault with
      | creating cause => exact .refl _
      | breakingOff count cause =>
          exact sameBut_put (fun _ hpath => ⟨⟨count, cause, hfault⟩, hpath⟩) _ _

/-- What the compiler writes stands where the path of its last argument leads. -/
theorem entry?_filesAfter {object : String} {args : List String}
    (hlast : args.getLast? = some object) {bytes : List UInt8}
    (hobject : s.object? .compiler = some bytes) {path : Path}
    (hpath : s.files.LeadsTo s.workingDirectory object path) :
    FileTree.entry? (s.filesAfter .compiler args) path = some (.file bytes) := by
  have hwritten : s.files.write s.workingDirectory object bytes
      = .ok (s.files.insert path (.file bytes)) :=
    FileTree.write_eq_ok_iff.mpr ⟨path, hpath, rfl⟩
  rw [filesAfter, hobject, hlast]
  dsimp only
  rw [hwritten]
  exact FileTree.entry?_insert_self hpath.ne_nil _

end Sandbox

namespace Session

open Sandbox (Within)

variable {P : ToolCall → Prop} {invocation : Invocation} {s t t' : Sandbox}

/-! ## The temporary files while the disassembler runs -/

/-- A start of a tool on the object of a function: the source is gone, and what the compiler wrote
is there. -/
structure FindsObject (s : Sandbox) (object : String) (call : ToolCall) : Prop where
  named : call.args.getLast? = some object
  sourceGone : ∀ path, s.files.LeadsTo s.workingDirectory (sourcePath object) path →
    call.files.entry? path = none
  objectThere : ∀ bytes, s.object? .compiler = some bytes →
    ∀ path, s.files.LeadsTo s.workingDirectory object path →
      call.files.entry? path = some (.file bytes)

/-- When the disassembler is started on an object that was made, the source is gone and the object
is there. -/
theorem findsObject_built {written : FileTree} {object : String}
    (hwritten : t.files.SameDirectories written)
    (hremoval : t.faults.removing (sourcePath object) = false) (scope : Scope) :
    FindsObject t object
      ((built t written object).call .disassembler (scope.disassemblerArgs (some object))) := by
  have hsame : t.files.SameBut (fun _ => True) written := ⟨hwritten, fun _ => .inr trivial⟩
  have hcompiled : t.Within (fun _ => True) (fun _ => True) (compiled t written object) :=
    within_compiled hsame (fun _ _ => trivial) fun _ _ => trivial
  have hbuilt : (built t written object).files = (compiled t written object).files.remove
      (compiled t written object).workingDirectory (sourcePath object) :=
    Sandbox.filesWithout_of_removable (hcompiled.faults ▸ hremoval)
  refine ⟨by simp [Sandbox.call, Scope.disassemblerArgs], fun path hpath => ?_,
    fun bytes hobject path hpath => ?_⟩
  · rw [Sandbox.call, hbuilt]
    exact FileTree.entry?_remove_self (hcompiled.leadsTo_iff.mpr hpath)
  · have hlast : (compilerArgs (sourcePath object) object).getLast? = some object := rfl
    have hentry : FileTree.entry? (compiled t written object).files path
        = some (.file bytes) := by
      rw [compiled, Sandbox.files_afterAttached]
      exact Sandbox.entry?_filesAfter (s := { t with files := written }) hlast hobject
        (hpath.of_sameDirectories hwritten)
    rw [Sandbox.call, hbuilt]
    -- the source has another name than the object, so removing it leaves the object
    rcases FileTree.entry?_remove (compiled t written object).files
        (compiled t written object).workingDirectory (sourcePath object) path with
      heq | ⟨hsource, -⟩
    · exact heq.trans hentry
    · exact absurd rfl (FileTree.LeadsTo.ne_of_append (by decide) (by decide) hpath
        (hcompiled.leadsTo_iff.mp hsource))

/-- When an object was made, the source was written and the compiler run. -/
theorem built_of_buildObject {source object : String}
    (h : runOn (buildObject source object : Stage (StateM Sandbox) Unit) t = (.ok (), t')) :
    t' = built t (t.write (sourcePath object) (Text.Utf8.encode source)).2 object := by
  cases hwrite : (t.write (sourcePath object) (Text.Utf8.encode source)).1 with
  | error cause => cases (runOn_buildObject_unwritten hwrite).symm.trans h
  | ok _ =>
      cases houtcome : t.outcome .compiler with
      | error cause => cases (runOn_buildObject_lost hwrite houtcome).symm.trans h
      | ok reply =>
          exact (congrArg Prod.snd ((runOn_buildObject_ended hwrite houtcome).symm.trans h)).symm

/-! ## The temporary files when a run has ended -/

section

variable {source object : String}
  (hremoval : ∀ name, t.faults.removing name = false)
  (hsource : ∀ path, t.files.LeadsTo t.workingDirectory (sourcePath object) path →
    t.files.entry? path = none)
  (hcompiler : ∀ call : ToolCall, call.tool = .compiler → P call)

include hremoval hsource hcompiler

/-- However the making of an object ends, the source is gone, unless its writing broke off. -/
theorem within_buildObject_of_fresh :
    Always (Within (fun path => t.BreaksOff (sourcePath object) (Text.Utf8.encode source) path
        ∨ t.files.LeadsTo t.workingDirectory object path) P)
      (buildObject source object : Stage (StateM Sandbox) Unit) t := by
  cases hwrite : (t.write (sourcePath object) (Text.Utf8.encode source)).1 with
  | error cause =>
      have hunwritten := Sandbox.sameBut_write_of_error hwrite
      exact .of_run (runOn_buildObject_unwritten hwrite)
        ⟨rfl, hunwritten.mono fun _ => .inl, .of_eq rfl⟩
  | ok _ =>
      have hcovers : t.Covers
          (fun path => (t.BreaksOff (sourcePath object) (Text.Utf8.encode source) path
              ∨ t.files.LeadsTo t.workingDirectory object path)
            ∨ t.files.LeadsTo t.workingDirectory (sourcePath object) path)
          (sourcePath object) := fun _ => .inr
      have hwritten := Sandbox.sameBut_write hcovers (Text.Utf8.encode source)
      have hcompiled := within_compiled hwritten (fun _ hpath => .inl (.inr hpath)) hcompiler
      have hbuilt := Within.removed hcompiled (hremoval _) hsource
      cases houtcome : t.outcome .compiler with
      | error cause => exact .of_run (runOn_buildObject_lost hwrite houtcome) hbuilt
      | ok reply => exact .of_run (runOn_buildObject_ended hwrite houtcome) hbuilt

/-- However the listing of a source is made, or is not, neither the source nor the object is left,
unless the writing of the source broke off. -/
theorem within_disassembleSource_of_fresh
    (hobject : ∀ path, t.files.LeadsTo t.workingDirectory object path →
      t.files.entry? path = none)
    (hfinds : ∀ call, FindsObject t object call → P call) (scope : Scope) :
    Always (Within (t.BreaksOff (sourcePath object) (Text.Utf8.encode source)) P)
      (disassembleSource scope source object : Stage (StateM Sandbox) String) t := by
  have hinner : Always (Within (fun path =>
        t.BreaksOff (sourcePath object) (Text.Utf8.encode source) path
          ∨ t.files.LeadsTo t.workingDirectory object path) P)
      (do buildObject source object
          disassemble scope (some object) : Stage (StateM Sandbox) String) t := by
    refine .bind Within.trans (within_buildObject_of_fresh hremoval hsource hcompiler)
      fun _ t' hbuilt _ => ?_
    obtain rfl := built_of_buildObject hbuilt
    have hcovers : t.Covers (fun _ => True) (sourcePath object) := fun _ _ => trivial
    have hwritten := Sandbox.sameBut_write hcovers (Text.Utf8.encode source)
    exact within_disassemble (hfinds _ (findsObject_built hwritten.directories (hremoval _) scope))
  rw [disassembleSource, Always, runOn_removing]
  exact Within.removed hinner (hremoval _) hobject

end

/-! ## The temporary files of a run -/

/-- If the disassembler is started in a run that compiles a function, it finds the object, and not
the source. -/
def FindsTemporaries (invocation : Invocation) (s : Sandbox) (call : ToolCall) : Prop :=
  call.tool = .disassembler → ∀ routine, invocation.mode.routine? = some routine →
    FindsObject s (objectOf s routine) call

/-- The path of a temporary source whose writing breaks off half way. -/
def IsBrokenOff (invocation : Invocation) (s : Sandbox) (path : Path) : Prop :=
  ∃ routine source, invocation.mode.routine? = some routine
    ∧ sourceText? invocation s = some source
    ∧ s.BreaksOff (sourceOf s routine) (Text.Utf8.encode source) path

/-- A run without a function has no temporary files to find. -/
theorem findsTemporaries_of_dump (hmode : invocation.mode.routine? = none) (call : ToolCall) :
    FindsTemporaries invocation s call := by
  intro _ routine hroutine
  cases hmode.symm.trans hroutine

/-- However the listing of a source is made, or is not, no temporary file of the run is left, and
none has gone too early. -/
theorem sourceWithin_of_fresh (hremoval : ∀ name, s.faults.removing name = false)
    (hfresh : FreshNames invocation s) :
    SourceWithin (IsBrokenOff invocation s) (FindsTemporaries invocation s) invocation s := by
  intro scope routine source input output errors hmode hsource
  have hnames : ∀ name ∈ temporaries invocation s, ∀ path,
      s.files.LeadsTo s.workingDirectory name path → s.files.entry? path = none :=
    fun name hname path hpath => hfresh path ⟨name, hname, hpath⟩
  rw [temporaries_of_routine? hmode] at hnames
  have hcompiler : ∀ call : ToolCall, call.tool = .compiler → FindsTemporaries invocation s call :=
    fun call hcompiler hdisassembler => by cases hcompiler.symm.trans hdisassembler
  have hfinds : ∀ call, FindsObject { s with input, output, errors } (objectOf s routine) call →
      FindsTemporaries invocation s call := fun call hcall _ other hother => by
    obtain rfl := Option.some.inj (hmode.symm.trans hother)
    exact ⟨hcall.named, hcall.sourceGone, hcall.objectThere⟩
  have hmade : Always (Within (s.BreaksOff (sourceOf s routine) (Text.Utf8.encode source))
        (FindsTemporaries invocation s))
      (disassembleSource scope source (objectOf s routine) : Stage (StateM Sandbox) String)
      { s with input, output, errors } :=
    within_disassembleSource_of_fresh (t := { s with input, output, errors }) hremoval
      (hnames _ List.mem_cons_self) hcompiler
      (hnames _ (List.mem_cons_of_mem _ List.mem_cons_self)) hfinds scope
  exact hmade.imp fun t ht => ht.mono fun path hbroken =>
    ⟨routine, source, hmode, hsource, hbroken⟩

end Session

end ByteEmbed
