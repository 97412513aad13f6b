import ByteEmbed.Proofs.Program.Equations

/-!
# ByteEmbed.Proofs.Program.Frames — what a run leaves as it was.

However a stage ends, with success, with a failure or given up, the only entries that it may have
changed are those of a few files that are named beforehand, and the only tools that it has started
are of a few kinds (`Within`).  Which files and which starts these are is left open here.  For a
whole run both are those of its listing and of its result (`within_stages`), and for its listing
those of the making of an object (`within_listing`).

Nothing is assumed of the machine, and nothing is said of when a file is there: that the temporary
files are gone in the end is another matter.
-/

namespace ByteEmbed

namespace Sandbox

variable {A B : Path → Prop} {P Q : ToolCall → Prop} {s t u : Sandbox}

/-! ## Starts of tools -/

/-- Between two states of a machine only such tools were started as `P` says. -/
def CallsSince (P : ToolCall → Prop) (s t : Sandbox) : Prop :=
  ∃ calls, t.calls = s.calls ++ calls ∧ ∀ call ∈ calls, P call

namespace CallsSince

theorem of_eq (h : t.calls = s.calls) : s.CallsSince P t :=
  ⟨[], by rw [h, List.append_nil], fun _ hcall => (List.not_mem_nil hcall).elim⟩

/-- One tool was started. -/
theorem of_call {call : ToolCall} (h : t.calls = s.calls ++ [call]) (hcall : P call) :
    s.CallsSince P t :=
  ⟨[call], h, fun _ hmem => List.mem_singleton.mp hmem ▸ hcall⟩

theorem trans (h : s.CallsSince P t) (h' : t.CallsSince P u) : s.CallsSince P u := by
  obtain ⟨calls, hcalls, hP⟩ := h
  obtain ⟨calls', hcalls', hP'⟩ := h'
  refine ⟨calls ++ calls', by rw [hcalls', hcalls, List.append_assoc], fun call hcall => ?_⟩
  rcases List.mem_append.mp hcall with hcall | hcall
  · exact hP call hcall
  · exact hP' call hcall

theorem imp (h : s.CallsSince P t) (himp : ∀ call, P call → Q call) : s.CallsSince Q t := by
  obtain ⟨calls, hcalls, hP⟩ := h
  exact ⟨calls, hcalls, fun call hcall => himp call (hP call hcall)⟩

end CallsSince

/-! ## Frames -/

/-- The part of a machine that no run changes. -/
def constants (s : Sandbox) : Sandbox :=
  { s with files := ⟨[]⟩, input := [], output := [], errors := [], calls := [] }

/-- A machine on which no other entries were changed than those of some paths, and no other tools
were started than such as `P` says. -/
structure Within (A : Path → Prop) (P : ToolCall → Prop) (s t : Sandbox) : Prop where
  constants : t.constants = s.constants
  files : s.files.SameBut A t.files
  calls : s.CallsSince P t

/-- Among some paths are those that a path as it is written can lead to. -/
def Covers (s : Sandbox) (A : Path → Prop) (name : String) : Prop :=
  ∀ path, s.files.LeadsTo s.workingDirectory name path → A path

namespace Within

/-- Only the streams are others. -/
theorem of_eq (hconstants : t.constants = s.constants) (hfiles : t.files = s.files)
    (hcalls : t.calls = s.calls) : s.Within A P t := by
  refine ⟨hconstants, ?_, .of_eq hcalls⟩
  rw [hfiles]
  exact .refl _

theorem trans (h : s.Within A P t) (h' : t.Within A P u) : s.Within A P u where
  constants := h'.constants.trans h.constants
  files := h.files.trans h'.files
  calls := h.calls.trans h'.calls

theorem mono (h : s.Within A P t) (hsub : ∀ path, A path → B path) : s.Within B P t where
  constants := h.constants
  files := h.files.mono hsub
  calls := h.calls

theorem workingDirectory (h : s.Within A P t) : t.workingDirectory = s.workingDirectory :=
  (congrArg Sandbox.workingDirectory h.constants :)

theorem faults (h : s.Within A P t) : t.faults = s.faults :=
  (congrArg Sandbox.faults h.constants :)

/-- A path as it is written leads to where it has led before. -/
theorem leadsTo_iff (h : s.Within A P t) {name : String} {path : Path} :
    t.files.LeadsTo t.workingDirectory name path
      ↔ s.files.LeadsTo s.workingDirectory name path := by
  rw [h.workingDirectory]
  exact ⟨fun hpath => hpath.of_sameDirectories h.files.directories.symm,
    fun hpath => hpath.of_sameDirectories h.files.directories⟩

theorem covers (h : s.Within A P t) {name : String} (hcovers : s.Covers B name) :
    t.Covers B name :=
  fun path hpath => hcovers path (h.leadsTo_iff.mp hpath)

end Within

/-! ## Files -/

theorem sameBut_put {name : String} (hcovers : s.Covers A name) (bytes : List UInt8)
    (outcome : Except HostError Unit) : s.files.SameBut A (s.put name bytes outcome).2 := by
  rw [put]
  cases hwrite : s.files.write s.workingDirectory name bytes with
  | error cause => exact .refl _
  | ok files => exact (FileTree.sameBut_write hwrite).mono hcovers

/-- A writing that fails, or breaks off, changes no other file than one that succeeds. -/
theorem sameBut_write {name : String} (hcovers : s.Covers A name) (bytes : List UInt8) :
    s.files.SameBut A (s.write name bytes).2 := by
  rw [write]
  split
  · exact sameBut_put hcovers _ _
  · exact .refl _
  · exact sameBut_put hcovers _ _

theorem sameBut_filesWithout {name : String} (hcovers : s.Covers A name) :
    s.files.SameBut A (s.filesWithout name) := by
  rw [filesWithout]
  split
  · exact .refl _
  · exact (FileTree.sameBut_remove s.files s.workingDirectory name).mono hcovers

/-- A tool changes no other file than the one that its last argument names. -/
theorem sameBut_filesAfter {target : String} (hcovers : s.Covers A target) (tool : Tool)
    {args : List String} (hlast : args.getLast? = some target) :
    s.files.SameBut A (s.filesAfter tool args) := by
  rw [filesAfter, hlast]
  cases s.object? tool with
  | none => exact .refl _
  | some bytes =>
      dsimp only
      cases hwrite : s.files.write s.workingDirectory target bytes with
      | error cause => exact .refl _
      | ok files => exact (FileTree.sameBut_write hwrite).mono hcovers

theorem within_filesWithout {name : String} (hcovers : s.Covers A name) :
    s.Within A P { s with files := s.filesWithout name } where
  constants := rfl
  files := sameBut_filesWithout hcovers
  calls := .of_eq rfl

/-! ## Tools -/

theorem within_afterAttached {target : String} (hcovers : s.Covers A target) {tool : Tool}
    {args : List String} (hlast : args.getLast? = some target) (hP : P (s.call tool args)) :
    s.Within A P (s.afterAttached tool args) := by
  rw [afterAttached]
  cases s.reply? tool with
  | none => exact .of_eq rfl rfl rfl
  | some reply => exact ⟨rfl, sameBut_filesAfter hcovers tool hlast, .of_call rfl hP⟩

/-- A tool that cannot be started writes nothing. -/
theorem files_afterAttached (s : Sandbox) (tool : Tool) (args : List String) :
    (s.afterAttached tool args).files = s.filesAfter tool args := by
  rw [afterAttached]
  cases hreply : s.reply? tool with
  | some reply => rfl
  | none =>
      have hobject : s.object? tool = none := by
        cases tool with
        | compiler =>
            rw [object?, Option.map_eq_none_iff.mp hreply]
            rfl
        | disassembler => rfl
      rw [filesAfter, hobject]
      rfl

/-- The disassembler writes no files. -/
theorem within_afterDisassembler {args : List String} (hP : P (s.call .disassembler args)) :
    s.Within A P (s.afterCaptured .disassembler args) := by
  rw [afterCaptured]
  cases s.reply? .disassembler with
  | none => exact .of_eq rfl rfl rfl
  | some reply => exact ⟨rfl, .refl _, .of_call rfl hP⟩

theorem files_afterDisassembler (s : Sandbox) (args : List String) :
    (s.afterCaptured .disassembler args).files = s.files := by
  rw [afterCaptured]
  cases s.reply? .disassembler <;> rfl

end Sandbox

namespace Session

open Sandbox (Within Covers)

variable {A : Path → Prop} {P : ToolCall → Prop} {invocation : Invocation} {s t : Sandbox}

/-! ## Stages -/

theorem within_tell (channel : Channel) (text : String) (t : Sandbox) :
    Always (Within A P) (tell channel text : Stage (StateM Sandbox) Unit) t := by
  obtain ⟨_, _, _, hrun⟩ := exists_runOn_tell channel text t
  exact .of_run hrun (.of_eq rfl rfl rfl)

theorem within_collect (seed? : Option UInt64) (text : String) (t : Sandbox) :
    Always (Within A P) (collect seed? text : Stage (StateM Sandbox) _) t :=
  .of_run (runOn_collect seed? text t) (.of_eq rfl rfl rfl)

theorem within_disassemble {scope : Scope} {path? : Option String}
    (hP : P (t.call .disassembler (scope.disassemblerArgs path?))) :
    Always (Within A P) (disassemble scope path? : Stage (StateM Sandbox) String) t := by
  obtain ⟨_, _, _, hrun⟩ := exists_runOn_disassemble scope path? t
  have hafter : t.Within A P (t.afterCaptured .disassembler (scope.disassemblerArgs path?)) :=
    Sandbox.within_afterDisassembler hP
  exact .of_run hrun (hafter.trans (.of_eq rfl rfl rfl))

/-- Where the compiler was run and the source has not been removed yet, the object may be another
besides the source that was written. -/
theorem within_compiled {written : FileTree} {object : String}
    (hwritten : t.files.SameBut A written) (hobject : t.Covers A object)
    (hP : ∀ call : ToolCall, call.tool = .compiler → P call) :
    t.Within A P (compiled t written object) := by
  have h : t.Within A P { t with files := written } := ⟨rfl, hwritten, .of_eq rfl⟩
  have hlast : (compilerArgs (sourcePath object) object).getLast? = some object := rfl
  exact h.trans (Sandbox.within_afterAttached (h.covers hobject) hlast (hP _ rfl))

theorem within_buildObject {source object : String} (hsource : t.Covers A (sourcePath object))
    (hobject : t.Covers A object) (hP : ∀ call : ToolCall, call.tool = .compiler → P call) :
    Always (Within A P) (buildObject source object : Stage (StateM Sandbox) Unit) t := by
  have hwritten := Sandbox.sameBut_write hsource (Text.Utf8.encode source)
  cases hwrite : (t.write (sourcePath object) (Text.Utf8.encode source)).1 with
  | error cause =>
      exact .of_run (runOn_buildObject_unwritten hwrite) ⟨rfl, hwritten, .of_eq rfl⟩
  | ok _ =>
      have hcompiled := within_compiled hwritten hobject hP
      have hbuilt : t.Within A P
          (built t (t.write (sourcePath object) (Text.Utf8.encode source)).2 object) :=
        hcompiled.trans (Sandbox.within_filesWithout (hcompiled.covers hsource))
      cases houtcome : t.outcome .compiler with
      | error cause => exact .of_run (runOn_buildObject_lost hwrite houtcome) hbuilt
      | ok reply => exact .of_run (runOn_buildObject_ended hwrite houtcome) hbuilt

/-- A source is compiled and disassembled without any other files being changed than that source and
its object. -/
theorem within_disassembleSource {source object : String}
    (hsource : t.Covers A (sourcePath object)) (hobject : t.Covers A object) (hP : ∀ call, P call)
    (scope : Scope) :
    Always (Within A P) (disassembleSource scope source object : Stage (StateM Sandbox) String)
      t := by
  have hinner : Always (Within A P)
      (do buildObject source object
          disassemble scope (some object) : Stage (StateM Sandbox) String) t :=
    .bind Within.trans (within_buildObject hsource hobject fun call _ => hP call)
      fun _ _ _ _ => within_disassemble (hP _)
  rw [disassembleSource, Always, runOn_removing]
  exact Within.trans hinner (Sandbox.within_filesWithout (Within.covers hinner hobject))

/-! ## Listings -/

/-- Whatever comes of the reading of a body, only standard input may be another then; and what was
read is the text of what there was. -/
theorem exists_runOn_readBody (file? : Option String) (t : Sandbox) :
    ∃ outcome input, runOn (readBody file? : Stage (StateM Sandbox) String) t
        = (outcome, { t with input })
      ∧ ∀ body, outcome = .ok body →
        (bodyBytes t file?).toOption.bind Text.Utf8.decode? = some body := by
  cases hbytes : bodyBytes t file? with
  | error cause =>
      obtain ⟨input, hrun⟩ := exists_runOn_readBody_unread hbytes
      exact ⟨_, input, hrun, nofun⟩
  | ok bytes =>
      obtain ⟨input, hrun⟩ := exists_runOn_readBody_read hbytes
      refine ⟨_, input, hrun, fun body hbody => ?_⟩
      cases htext : Text.Utf8.decode? bytes with
      | none =>
          rw [htext] at hbody
          cases hbody
      | some text =>
          rw [htext] at hbody
          cases hbody
          exact htext

/-- A function is as its source is, once its body has been read. -/
theorem within_disassembleFunction {scope : Scope} {routine : Routine}
    (hmode : invocation.mode.routine? = some routine)
    (hsource : ∀ source input, sourceText? invocation t = some source →
      Always (Within A P)
        (disassembleSource scope source (objectOf t routine) : Stage (StateM Sandbox) String)
        { t with input }) :
    Always (Within A P)
      (disassembleFunction scope routine.name routine.file? routine.language
        : Stage (StateM Sandbox) String) t := by
  rw [disassembleFunction]
  cases hsnippet : Snippet.ofName? routine.name routine.language with
  | none => exact .of_run (runOn_fail t _) (.of_eq rfl rfl rfl)
  | some snippet =>
      obtain ⟨outcome, input, hrun, hbody⟩ := exists_runOn_readBody routine.file? t
      refine .bind Within.trans (.of_run hrun (.of_eq rfl rfl rfl)) fun body t' hread _ => ?_
      have heq := hrun.symm.trans hread
      obtain rfl := congrArg Prod.snd heq
      have htext : sourceText? invocation t = some (snippet.sourceText body) := by
        obtain ⟨bytes, hbytes, htext⟩ :=
          Option.bind_eq_some_iff.mp (hbody body (congrArg Prod.fst heq))
        simp [sourceText?, hmode, hsnippet, hbytes, htext]
      refine .following (runOn_temporaryDirectory _) ?_ id
      refine .following (runOn_freshTag _) ?_ id
      exact hsource _ input htext

/-- The listing of a mode is the disassembler's, or that of the function it compiles. -/
theorem listing_of_routine? {mode : Mode} {routine : Routine} (hmode : mode.routine? = some routine)
    (scope : Scope) :
    (listing scope mode : Stage (StateM Sandbox) String)
      = disassembleFunction scope routine.name routine.file? routine.language := by
  cases mode <;> cases hmode <;> rfl

theorem exists_path_of_routine?_eq_none {mode : Mode} (hmode : mode.routine? = none) :
    ∃ path?, mode = .dump path? := by
  cases mode with
  | dump path? => exact ⟨path?, rfl⟩
  | asm | c => cases hmode

theorem temporaries_of_routine? {routine : Routine}
    (hmode : invocation.mode.routine? = some routine) (s : Sandbox) :
    temporaries invocation s = [sourceOf s routine, objectOf s routine] := by
  rw [temporaries, hmode]
  rfl

theorem within_listing (scope : Scope)
    (hdump : invocation.mode.routine? = none → ∀ call, P call)
    (hsource : ∀ routine source input, invocation.mode.routine? = some routine →
      sourceText? invocation t = some source →
      Always (Within A P)
        (disassembleSource scope source (objectOf t routine) : Stage (StateM Sandbox) String)
        { t with input }) :
    Always (Within A P) (listing scope invocation.mode : Stage (StateM Sandbox) String) t := by
  cases hmode : invocation.mode.routine? with
  | none =>
      obtain ⟨path?, hpath⟩ := exists_path_of_routine?_eq_none hmode
      rw [hpath]
      exact within_disassemble (hdump hmode _)
  | some routine =>
      rw [listing_of_routine? hmode]
      exact within_disassembleFunction hmode fun source input => hsource routine source input hmode

/-! ## Whole runs -/

/-- A source of a run is compiled and disassembled without any other entries being changed than
those of some paths, and without any other tools being started than such as `P` says. -/
def SourceWithin (A : Path → Prop) (P : ToolCall → Prop) (invocation : Invocation) (s : Sandbox) :
    Prop :=
  ∀ scope routine source input output errors,
    invocation.mode.routine? = some routine → sourceText? invocation s = some source →
    Always (Within A P)
      (disassembleSource scope source (objectOf s routine) : Stage (StateM Sandbox) String)
      { s with input, output, errors }

/-- Until there is a result, a run is as the listing of its source is. -/
theorem within_produce (readers : Readers)
    (hdump : invocation.mode.routine? = none → ∀ call, P call)
    (hsource : SourceWithin A P invocation s) :
    Always (Within A P) (produce readers invocation : Stage (StateM Sandbox) String) s := by
  obtain ⟨loaded, hload⟩ := exists_runOn_loadSettings readers invocation s
  have hloaded : Always (Within A P)
      (loadSettings readers invocation : Stage (StateM Sandbox) Settings) s :=
    .of_run hload (.of_eq rfl rfl rfl)
  refine .bind Within.trans hloaded fun settings t ht _ => ?_
  obtain rfl := congrArg Prod.snd (hload.symm.trans ht)
  obtain ⟨told, output, errors, htell⟩ :=
    exists_runOn_tell .errors (stepLine 1 ("Disassemble (" ++ settings.scope.name ++ ")")) s
  refine .bind Within.trans (within_tell _ _ s) fun _ t ht _ => ?_
  obtain rfl := congrArg Prod.snd (htell.symm.trans ht)
  have hlisting : Always (Within A P)
      (listing settings.scope invocation.mode : Stage (StateM Sandbox) String)
      { s with output, errors } :=
    within_listing settings.scope hdump fun routine source input hmode htext =>
      hsource settings.scope routine source input output errors hmode htext
  refine .bind Within.trans hlisting fun text t₁ _ _ => ?_
  refine .bind Within.trans (within_tell _ _ t₁) fun _ t₂ _ _ => ?_
  refine .bind Within.trans (within_collect _ _ t₂) fun symbols t₃ _ _ => ?_
  have hlast : ∀ t₄, Always (Within A P)
      (do announce 3 s!"Render {symbols.length} Symbols"
          return settings.layout.declareAll symbols : Stage (StateM Sandbox) String) t₄ := fun t₄ =>
    .bind Within.trans (within_tell _ _ t₄) fun _ t₅ _ _ =>
      .of_run (runOn_pure _ t₅) (.of_eq rfl rfl rfl)
  split
  · exact .bind Within.trans (within_tell _ _ t₃) fun _ t₄ _ _ => hlast t₄
  · exact hlast t₃

/-- Of the files, the writing of a result may change the one that was named. -/
theorem within_deliver (output? : Option String) (text : String)
    (hresult : ∀ file, output? = some file → t.Covers A file) :
    Always (Within A P) (deliver output? text : Stage (StateM Sandbox) Unit) t := by
  obtain ⟨_, _, _, hrun⟩ := exists_runOn_deliver output? text t
  refine .of_run hrun ⟨rfl, ?_, .of_eq rfl⟩
  cases output? with
  | none => exact .refl _
  | some file => exact Sandbox.sameBut_write (hresult file rfl) _

/-- A run is as the listing of its source and its result are. -/
theorem within_stages (readers : Readers)
    (hdump : invocation.mode.routine? = none → ∀ call, P call)
    (hsource : SourceWithin A P invocation s) :
    Always (Within (fun path => A path ∨ IsResult invocation s path) P)
      (stages readers invocation : Stage (StateM Sandbox) Unit) s := by
  have hproduced : Always (Within (fun path => A path ∨ IsResult invocation s path) P)
      (produce readers invocation : Stage (StateM Sandbox) String) s :=
    (within_produce readers hdump hsource).imp fun _ ht => ht.mono fun _ => .inl
  refine .bind Within.trans hproduced fun text t _ ht => within_deliver _ _ fun file hfile => ?_
  exact ht.covers fun path hpath => .inr ⟨file, hfile, hpath⟩

end Session

end ByteEmbed
