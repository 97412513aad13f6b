import Mathlib.Logic.Basic
import ByteEmbed.Proofs.Program.Ordered

/-!
# ByteEmbed.Proofs.Program.Stages — how the stages of a run go.

Each stage is told for every fault of its steps and for a machine on which they have none.  The
files are followed through the stages that make an object to the tree that is left once there is a
listing (`listedFiles`), since the writing of the result may fail or succeed by what is in it.
-/

namespace ByteEmbed

namespace Sandbox.Since

variable {s t : Sandbox} {tools : List Tool} {output errors : List UInt8}

/-- Files are written on a machine as they were before, but for the files that are there now. -/
theorem write (h : Since s t tools output errors) :
    t.write = { s with files := t.files }.write := by
  funext name bytes
  simp only [Sandbox.write, Sandbox.put, h.faults, h.workingDirectory]

/-- They are removed as they were before, too. -/
theorem filesWithout (h : Since s t tools output errors) :
    t.filesWithout = { s with files := t.files }.filesWithout := by
  funext name
  simp only [Sandbox.filesWithout, h.faults, h.workingDirectory]

/-- So are those that a tool writes. -/
theorem filesAfter (h : Since s t tools output errors) :
    t.filesAfter = { s with files := t.files }.filesAfter := by
  have hobject : t.object? = s.object? := (congrArg Sandbox.object? h.constants :)
  have hobject' : { s with files := t.files }.object? = s.object? := rfl
  funext tool args
  simp only [Sandbox.filesAfter, hobject, hobject', h.workingDirectory]

end Sandbox.Since

/-- A writing that succeeds has written everything. -/
theorem Sandbox.read_of_write {t : Sandbox} {file : String} {bytes : List UInt8}
    (h : (t.write file bytes).1 = .ok ()) :
    (t.write file bytes).2.read t.workingDirectory file = .ok bytes := by
  rw [Sandbox.write] at h ⊢
  cases hfault : t.faults.writing file bytes with
  | none =>
      simp only [hfault, Sandbox.put] at h ⊢
      cases hwrite : t.files.write t.workingDirectory file bytes with
      | error cause => simp [hwrite] at h
      | ok files => exact FileTree.read_of_write hwrite
  | some fault =>
      cases fault with
      | creating cause => simp [hfault] at h
      | breakingOff count cause =>
          simp only [hfault, Sandbox.put] at h
          split at h <;> cases h

namespace Session

variable {readers : Readers} {invocation : Invocation} {s t : Sandbox} {before : List Step}

/-! ## Settings -/

theorem runOn_loadSettings_of_fault {failure : Failure}
    (h : Fault readers invocation s .settings failure) :
    runOn (loadSettings readers invocation : Stage (StateM Sandbox) Settings) s
      = (.error (.failed failure), s) := by
  cases h with
  | settingsNotOpened hconfig hread =>
      exact runOn_loadSettings hconfig (runOn_readSettings_unopened hread)
  | settingsRefused hconfig hread hsettings =>
      have hrun := runOn_readSettings_opened readers hread
      rw [hsettings] at hrun
      exact runOn_loadSettings hconfig hrun
  | toolNotRun htool | toolFailed htool => cases htool

theorem runOn_loadSettings_of_clean
    (h : ∀ failure, ¬ Fault readers invocation s .settings failure) :
    ∃ settings, settings? readers invocation s = some settings
      ∧ runOn (loadSettings readers invocation : Stage (StateM Sandbox) Settings) s
        = (.ok settings, s) := by
  cases hconfig : invocation.config? with
  | none =>
      refine ⟨invocation.applyTo Settings.default, ?_, ?_⟩
      · rw [settings?, hconfig]
      · rw [loadSettings, hconfig]
        rfl
  | some file =>
      cases hopened : opened? s file with
      | none =>
          obtain ⟨cause, hread⟩ := exists_cause_of_opened?_eq_none hopened
          exact absurd (.settingsNotOpened hconfig hread) (h _)
      | some opened =>
          cases hsettings : readers.settings opened with
          | error causes => exact absurd (.settingsRefused hconfig hopened hsettings) (h _)
          | ok settings =>
              have hrun := runOn_readSettings_opened readers hopened
              rw [hsettings] at hrun
              refine ⟨invocation.applyTo settings, ?_, runOn_loadSettings hconfig hrun⟩
              rw [settings?, hconfig]
              simp [hopened, hsettings, Except.toOption]

/-- The settings are loaded without anything else being done. -/
theorem goes_loadSettings :
    Goes readers invocation s [] [.settings] (loadSettings readers invocation) s
      fun settings t => settings? readers invocation s = some settings ∧ t = s := by
  refine .cons (fun failure hfault => ?_) (fun hclean => ?_)
  · have hstart : Reached readers invocation s [] s := .refl s
    exact ⟨s, runOn_loadSettings_of_fault hfault, hstart.taken rfl⟩
  · obtain ⟨settings, hsettings, hrun⟩ := runOn_loadSettings_of_clean hclean
    exact .nil hrun ⟨hsettings, rfl⟩

/-! ## Disassembling -/

/-- The account of a disassembler that was to be run. -/
theorem Reached.disassembled (h : Reached readers invocation s before t) (args : List String) :
    Taken readers invocation s before .disassembler
      ((t.afterCaptured .disassembler args).writeErrors (shown s .disassembler)) := by
  apply taken_of_since
  have hprinted : printed s .disassembler = [] := rfl
  rw [hprinted, List.append_nil]
  exact (h.afterCaptured .disassembler args).writeErrors _

/-- What is true of a listing that was made: the disassembler wrote it, and the files are those that
are left of the making of its object. -/
def Listed (readers : Readers) (invocation : Invocation) (s : Sandbox) (before : List Step)
    (files : FileTree) (text : String) (t : Sandbox) : Prop :=
  Taken readers invocation s before .disassembler t ∧ t.files = files
    ∧ ∃ reply, s.outcome .disassembler = .ok reply ∧ text = Text.Utf8.decodeLossy reply.output

/-- How the disassembler's stage goes. -/
theorem goes_disassemble (htakes : s.TakesAll) (h : Reached readers invocation s before t)
    (scope : Scope) (path? : Option String) :
    Goes readers invocation s before [.disassembler] (disassemble scope path?) t
      (Listed readers invocation s before t.files) := by
  have htaken := h.disassembled (scope.disassemblerArgs path?)
  rw [shown] at htaken
  have hended : ∀ reply, s.outcome .disassembler = .ok reply →
      ∃ t', runOn (disassemble scope path? : Stage (StateM Sandbox) String) t
          = (listingOf reply, t')
        ∧ Taken readers invocation s before .disassembler t' ∧ t'.files = t.files := by
    intro reply houtcome
    rw [houtcome] at htaken
    refine ⟨_, runOn_disassemble_ended (h.takesAll htakes) ?_ scope path?, htaken, ?_⟩
    · rw [h.outcome, houtcome]
    · exact Sandbox.files_afterDisassembler t _
  refine .cons (fun failure hfault => ?_) (fun hclean => ?_)
  · cases hfault with
    | toolNotRun htool houtcome =>
        cases htool
        have hlost := houtcome
        rw [← h.outcome] at hlost
        refine ⟨_, runOn_disassemble_lost hlost scope path?, ?_⟩
        rw [houtcome] at htaken
        simpa [Except.toOption, Sandbox.writeErrors] using htaken
    | toolFailed htool houtcome hstatus =>
        cases htool
        obtain ⟨t', hrun, htaken', -⟩ := hended _ houtcome
        rw [listingOf, hstatus] at hrun
        exact ⟨t', hrun, htaken'⟩
    | disassemblerSilent houtcome hstatus houtput =>
        obtain ⟨t', hrun, htaken', -⟩ := hended _ houtcome
        rw [listingOf, hstatus, houtput] at hrun
        exact ⟨t', hrun, htaken'⟩
  · cases houtcome : s.outcome .disassembler with
    | error cause => exact absurd (.toolNotRun rfl houtcome) (hclean _)
    | ok reply =>
        obtain ⟨t', hrun, htaken', hfiles⟩ := hended reply houtcome
        have hstatus : reply.status.succeeded = true :=
          Bool.not_eq_false _ ▸ fun hfailed => hclean _ (.toolFailed rfl houtcome hfailed)
        have houtput : reply.output.isEmpty = false :=
          Bool.eq_false_iff.mpr fun hempty =>
            hclean _ (.disassemblerSilent houtcome hstatus (List.isEmpty_iff.mp hempty))
        rw [listingOf, hstatus, houtput] at hrun
        exact .nil hrun ⟨htaken', hfiles, reply, houtcome, rfl⟩

/-! ## Compiling -/

/-- The account of a compiler that was to be run. -/
theorem Reached.built (h : Reached readers invocation s before t) (written : FileTree)
    (object : String) : Taken readers invocation s before .compiler (built t written object) :=
  taken_of_since (((h.withFiles written).afterAttached .compiler _).withFiles _)

/-- When the object is removed as well, those files are left that `filesBuilt` says. -/
theorem filesWithout_built (h : Reached readers invocation s before t) (hfiles : t.files = s.files)
    (object source : String) :
    (built t (t.write (sourcePath object) (Text.Utf8.encode source)).2 object).filesWithout object
      = filesBuilt s object source := by
  have hwrite : t.write = s.write := by rw [h.write, hfiles]
  rw [hwrite, filesBuilt]
  generalize (s.write (sourcePath object) (Text.Utf8.encode source)).2 = written
  have hwritten := h.withFiles written
  have hafter := hwritten.afterAttached .compiler (compilerArgs (sourcePath object) object)
  have hcompiled : (compiled t written object).files
      = { s with files := written }.filesAfter .compiler
        (compilerArgs (sourcePath object) object) := by
    rw [compiled, Sandbox.files_afterAttached, hwritten.filesAfter]
  rw [(h.built written object).filesWithout, built]
  dsimp only
  rw [compiled, hafter.filesWithout, ← compiled, hcompiled]

section

variable {routine : Routine} {source : String}
  (hmode : invocation.mode.routine? = some routine)
  (hsource : sourceText? invocation s = some source)

include hmode hsource

/-- How the making of an object goes.  The object is still to be removed. -/
theorem goes_buildObject (h : Reached readers invocation s before t) (hfiles : t.files = s.files) :
    Goes readers invocation s before [.source, .compiler]
      (buildObject source (objectOf s routine)) t
      fun _ t' => Taken readers invocation s (before ++ [.source]) .compiler t'
        ∧ t'.filesWithout (objectOf s routine) = listedFiles invocation s := by
  have hsame : t.write = s.write := by rw [h.write, hfiles]
  refine .cons (fun failure hfault => ?_) (fun hclean => ?_)
  · cases hfault with
    | sourceNotWritten hmode' hsource' hwrite =>
        obtain rfl := Option.some.inj (hmode.symm.trans hmode')
        obtain rfl := Option.some.inj (hsource.symm.trans hsource')
        rw [← hsame] at hwrite
        have htaken : Taken readers invocation s before .source t := h.taken rfl
        exact ⟨_, runOn_buildObject_unwritten hwrite, htaken.withFiles _⟩
    | toolNotRun htool | toolFailed htool => cases htool
  cases hwrite : (t.write (sourceOf s routine) (Text.Utf8.encode source)).1 with
  | error cause =>
      rw [hsame] at hwrite
      exact absurd (.sourceNotWritten hmode hsource hwrite) (hclean _)
  | ok _ =>
      have hreached : Reached readers invocation s (before ++ [.source]) t :=
        (h.taken rfl).reached_of_silent rfl
      have htaken := hreached.built (t.write (sourceOf s routine) (Text.Utf8.encode source)).2
        (objectOf s routine)
      refine .cons (fun failure hfault => ?_) (fun hcompiler => ?_)
      · cases hfault with
        | toolNotRun htool houtcome =>
            cases htool
            rw [← h.outcome] at houtcome
            exact ⟨_, runOn_buildObject_lost hwrite houtcome, htaken⟩
        | toolFailed htool houtcome hstatus =>
            cases htool
            rw [← h.outcome] at houtcome
            have hrun := runOn_buildObject_ended hwrite houtcome
            rw [hstatus] at hrun
            exact ⟨_, hrun, htaken⟩
      · cases houtcome : s.outcome .compiler with
        | error cause => exact absurd (.toolNotRun rfl houtcome) (hcompiler _)
        | ok reply =>
            have hstatus : reply.status.succeeded = true :=
              Bool.not_eq_false _ ▸ fun hfailed => hcompiler _ (.toolFailed rfl houtcome hfailed)
            have hrun := runOn_buildObject_ended hwrite (h.outcome ▸ houtcome)
            rw [hstatus] at hrun
            refine .nil hrun ⟨htaken, ?_⟩
            rw [listedFiles, hmode, hsource]
            exact filesWithout_built h hfiles _ _

/-- How the listing of a function is made once its body has been read. -/
theorem goes_disassembleSource (htakes : s.TakesAll) (h : Reached readers invocation s before t)
    (hfiles : t.files = s.files) (scope : Scope) :
    Goes readers invocation s before ([.source, .compiler] ++ [.disassembler])
      (disassembleSource scope source (objectOf s routine)) t
      (Listed readers invocation s (before ++ [.source, .compiler])
        (listedFiles invocation s)) := by
  refine .removing (.bind (goes_buildObject hmode hsource h hfiles) ?_)
  rintro - t' ⟨htaken, hbuilt⟩
  have hreached := htaken.reached_of_silent rfl
  rw [List.append_assoc] at hreached
  refine (goes_disassemble htakes hreached scope _).imp ?_
  rintro text t'' ⟨htaken', hfiles', hreply⟩
  refine ⟨htaken'.withFiles _, ?_, hreply⟩
  have hsame : ({ s with files := t'.files }).filesWithout (objectOf s routine)
      = listedFiles invocation s := by rw [← hbuilt, htaken.filesWithout]
  rw [← hsame, htaken'.filesWithout, hfiles']

end

/-! ## The body of a function -/

/-- As long as nothing has been read or written, a body is what it was before. -/
theorem bodyBytes_of_reached (h : Reached readers invocation s before t)
    (hfiles : t.files = s.files) (hinput : t.input = s.input) : bodyBytes t = bodyBytes s := by
  have hread : t.read = s.read := by
    funext name
    simp only [Sandbox.read, h.faults, h.workingDirectory, hfiles]
  funext file?
  cases file? with
  | some file => rw [bodyBytes, bodyBytes, hread]
  | none => rw [bodyBytes, bodyBytes, h.faults, hinput]

section

variable {routine : Routine} (hmode : invocation.mode.routine? = some routine)
  (hbytes : bodyBytes t routine.file? = bodyBytes s routine.file?)

include hmode hbytes

theorem runOn_readBody_of_fault {failure : Failure}
    (h : Fault readers invocation s .body failure) :
    ∃ input, runOn (readBody routine.file? : Stage (StateM Sandbox) String) t
      = (.error (.failed failure), { t with input }) := by
  cases h with
  | bodyNotRead hmode' hread =>
      obtain rfl := Option.some.inj (hmode.symm.trans hmode')
      exact exists_runOn_readBody_unread (hbytes.trans hread)
  | bodyNoText hmode' hread htext =>
      obtain rfl := Option.some.inj (hmode.symm.trans hmode')
      obtain ⟨input, hrun⟩ := exists_runOn_readBody_read (hbytes.trans hread)
      rw [htext] at hrun
      exact ⟨input, hrun⟩
  | toolNotRun htool | toolFailed htool => cases htool

theorem runOn_readBody_of_clean (h : ∀ failure, ¬ Fault readers invocation s .body failure) :
    ∃ bytes body input, bodyBytes s routine.file? = .ok bytes
      ∧ Text.Utf8.decode? bytes = some body
      ∧ runOn (readBody routine.file? : Stage (StateM Sandbox) String) t
        = (.ok body, { t with input }) := by
  cases hread : bodyBytes s routine.file? with
  | error cause => exact absurd (.bodyNotRead hmode hread) (h _)
  | ok bytes =>
      cases htext : Text.Utf8.decode? bytes with
      | none => exact absurd (.bodyNoText hmode hread htext) (h _)
      | some body =>
          obtain ⟨input, hrun⟩ := exists_runOn_readBody_read (hbytes.trans hread)
          rw [htext] at hrun
          exact ⟨bytes, body, input, rfl, htext, hrun⟩

end

/-! ## Listings -/

theorem ofName?_of_isIdentifier {name : String} (language : Language)
    (h : isIdentifier name = true) :
    Snippet.ofName? name language = some ⟨name, language, h⟩ := by
  rw [Snippet.ofName?, dif_pos h]

theorem ofName?_of_not_isIdentifier {name : String} (language : Language)
    (h : isIdentifier name = false) : Snippet.ofName? name language = none := by
  rw [Snippet.ofName?, dif_neg (Bool.eq_false_iff.mp h)]

/-- How the listing of a function is made. -/
theorem goes_disassembleFunction {routine : Routine}
    (hmode : invocation.mode.routine? = some routine) (htakes : s.TakesAll)
    (h : Reached readers invocation s before t) (hfiles : t.files = s.files)
    (hinput : t.input = s.input) (scope : Scope) :
    Goes readers invocation s before [.name, .body, .source, .compiler, .disassembler]
      (disassembleFunction scope routine.name routine.file? routine.language) t
      (Listed readers invocation s (before ++ [.name, .body, .source, .compiler])
        (listedFiles invocation s)) := by
  refine .cons (fun failure hfault => ?_) (fun hname => ?_)
  · cases hfault with
    | nameInvalid hmode' hinvalid =>
        obtain rfl := Option.some.inj (hmode.symm.trans hmode')
        refine ⟨t, ?_, h.taken rfl⟩
        rw [disassembleFunction, ofName?_of_not_isIdentifier _ hinvalid]
        rfl
    | toolNotRun htool | toolFailed htool => cases htool
  have hvalid : isIdentifier routine.name = true :=
    Bool.not_eq_false _ ▸ fun hinvalid => hname _ (.nameInvalid hmode hinvalid)
  have hsnippet := ofName?_of_isIdentifier routine.language hvalid
  have hbefore : Reached readers invocation s (before ++ [.name]) t :=
    (h.taken rfl).reached_of_silent rfl
  have hbytes := congrFun (bodyBytes_of_reached h hfiles hinput) routine.file?
  rw [disassembleFunction, hsnippet]
  refine .cons (fun failure hfault => ?_) (fun hbody => ?_)
  · obtain ⟨input, hrun⟩ := runOn_readBody_of_fault hmode hbytes hfault
    have htaken : Taken readers invocation s (before ++ [.name]) .body t := hbefore.taken rfl
    exact ⟨_, runOn_bind_error hrun, htaken.withInput input⟩
  obtain ⟨bytes, body, input, hread, htext, hrun⟩ := runOn_readBody_of_clean hmode hbytes hbody
  have hreached : Reached readers invocation s (before ++ [.name] ++ [.body])
      { t with input } :=
    ((hbefore.taken rfl).reached_of_silent rfl).withInput input
  refine .following hrun (.following (runOn_temporaryDirectory _)
    (.following (runOn_freshTag _) ?_))
  have hobject : objectPath t.temporaryDirectory routine.name t.tag = objectOf s routine := by
    rw [objectOf, h.temporaryDirectory, h.tag]
  have hsource : sourceText? invocation s
      = some (Snippet.sourceText ⟨routine.name, routine.language, hvalid⟩ body) := by
    simp [sourceText?, hmode, hsnippet, hread, htext, Except.toOption]
  rw [List.append_assoc] at hreached
  have hgoes := goes_disassembleSource hmode hsource htakes hreached hfiles scope
  rw [← hobject, List.append_assoc] at hgoes
  rw [List.append_assoc]
  exact hgoes

/-- How the listing that a mode asks for is made. -/
theorem goes_listing (htakes : s.TakesAll) (h : Reached readers invocation s before t)
    (hfiles : t.files = s.files) (hinput : t.input = s.input) (scope : Scope) :
    Goes readers invocation s before (compileSteps invocation.mode ++ [.disassembler])
      (listing scope invocation.mode) t
      (Listed readers invocation s (before ++ compileSteps invocation.mode)
        (listedFiles invocation s)) := by
  cases hmode : invocation.mode.routine? with
  | none =>
      obtain ⟨path?, hdump⟩ := exists_path_of_routine?_eq_none hmode
      have hlisted : listedFiles invocation s = t.files := by rw [listedFiles, hmode, hfiles]
      rw [compileSteps, hmode, Option.elim_none, List.append_nil, List.nil_append, hlisted, hdump]
      exact goes_disassemble htakes h scope path?
  | some routine =>
      rw [compileSteps, hmode, Option.elim_some, listing_of_routine? hmode]
      exact goes_disassembleFunction hmode htakes h hfiles hinput scope

/-! ## The result -/

/-- How the symbols of a listing are collected. -/
theorem goes_collect {reply : ToolReply} (h : Reached readers invocation s before t)
    (houtcome : s.outcome .disassembler = .ok reply) :
    Goes readers invocation s before [.listing]
      (collect invocation.seed? (Text.Utf8.decodeLossy reply.output)) t
      fun symbols t' => symbols? invocation s = some symbols ∧ t' = t := by
  have hrun := runOn_collect invocation.seed? (Text.Utf8.decodeLossy reply.output) t
  rw [h.entropy] at hrun
  refine .cons (fun failure hfault => ?_) (fun hclean => ?_)
  · cases hfault with
    | listingMalformed houtcome' hlisting =>
        obtain rfl := Except.ok.inj (houtcome.symm.trans houtcome')
        rw [hlisting] at hrun
        exact ⟨t, hrun, h.taken rfl⟩
    | toolNotRun htool | toolFailed htool => cases htool
  · cases hlisting : Listing.symbolsOf (Xoshiro.ofSeed (invocation.seed?.getD s.entropy))
        (Text.Utf8.decodeLossy reply.output) with
    | error cause => exact absurd (.listingMalformed houtcome hlisting) (hclean _)
    | ok symbols =>
        rw [hlisting] at hrun
        refine .nil hrun ⟨?_, rfl⟩
        simp [symbols?, houtcome, hlisting, Except.toOption]

end Session

end ByteEmbed
