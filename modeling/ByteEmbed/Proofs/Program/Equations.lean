import Mathlib.Logic.Basic
import ByteEmbed.Proofs.Program.Steps
import ByteEmbed.Proofs.Run

/-!
# ByteEmbed.Proofs.Program.Equations — what each stage of a run comes to.

The outcome of a stage and the machine it leaves, as functions of the machine before, whatever that
does or fails to do.  Where a stage may be given up half way through, only the two streams are left
open.
-/

namespace ByteEmbed.Session

variable {readers : Readers} {invocation : Invocation} {t : Sandbox}

/-! ## What a machine is asked for -/

section

variable (t)

theorem runOn_readFile (file : String) :
    runOn (ExceptT.lift (Host.readFile file) : Stage (StateM Sandbox) _) t
      = (.ok (t.read file), t) :=
  rfl

theorem runOn_writeFile (file text : String) :
    runOn (ExceptT.lift (Host.writeFile file text) : Stage (StateM Sandbox) _) t
      = (.ok (t.write file (Text.Utf8.encode text)).1,
        { t with files := (t.write file (Text.Utf8.encode text)).2 }) :=
  rfl

theorem runOn_removeFile (file : String) :
    runOn (ExceptT.lift (Host.removeFile file) : Stage (StateM Sandbox) Unit) t
      = (.ok (), { t with files := t.filesWithout file }) :=
  rfl

theorem runOn_temporaryDirectory :
    runOn (ExceptT.lift Host.temporaryDirectory : Stage (StateM Sandbox) String) t
      = (.ok t.temporaryDirectory, t) :=
  rfl

theorem runOn_freshTag :
    runOn (ExceptT.lift Host.freshTag : Stage (StateM Sandbox) String) t = (.ok t.tag, t) :=
  rfl

theorem runOn_entropy :
    runOn (ExceptT.lift Host.entropy : Stage (StateM Sandbox) UInt64) t = (.ok t.entropy, t) :=
  rfl

theorem runOn_runAttached (tool : Tool) (args : List String) :
    runOn (ExceptT.lift (Host.runAttached tool args) : Stage (StateM Sandbox) _) t
      = (.ok ((t.outcome tool).map ToolReply.status), t.afterAttached tool args) :=
  rfl

theorem runOn_runCaptured (tool : Tool) (args : List String) :
    runOn (ExceptT.lift (Host.runCaptured tool args) : Stage (StateM Sandbox) _) t
      = (.ok (t.outcome tool), t.afterCaptured tool args) :=
  rfl

theorem runOn_print (channel : Channel) (text : String) :
    runOn (ExceptT.lift (Host.print channel text) : Stage (StateM Sandbox) _) t
      = (.ok (t.offer channel (Text.Utf8.encode text)).1,
        (t.offer channel (Text.Utf8.encode text)).2) :=
  rfl

theorem runOn_giveUp (reason : String) :
    runOn (ExceptT.lift (Host.giveUp reason) : Stage (StateM Sandbox) Unit) t
      = (.ok (), (t.offer .errors (Text.Utf8.encode (t.notice reason))).2) :=
  rfl

theorem runOn_fail {α : Type} (failure : Failure) :
    runOn (fail failure : Stage (StateM Sandbox) α) t = (.error (.failed failure), t) :=
  rfl

end

theorem runOn_removing {α : Type} (file : String) (stage : Stage (StateM Sandbox) α)
    (t : Sandbox) :
    runOn (removing file stage) t
      = ((runOn stage t).1,
        { (runOn stage t).2 with files := (runOn stage t).2.filesWithout file }) :=
  rfl

/-! ## Streams -/

theorem offer_of_takesAll (h : t.TakesAll) (channel : Channel) (bytes : List UInt8) :
    t.offer channel bytes = (.ok (), t.writeTo bytes channel) := by
  rw [Sandbox.offer, h]

theorem takesAll_writeTo (h : t.TakesAll) (bytes : List UInt8) (channel : Channel) :
    (t.writeTo bytes channel).TakesAll := by
  cases channel <;> exact h

theorem runOn_tell_of_takesAll (h : t.TakesAll) (channel : Channel) (text : String) :
    runOn (tell channel text : Stage (StateM Sandbox) Unit) t
      = (.ok (), t.writeTo (Text.Utf8.encode text) channel) := by
  rw [tell, runOn_bind_ok (runOn_print t channel text), offer_of_takesAll h]
  rfl

/-- What is given to a stream changes the streams and nothing else. -/
theorem exists_offer (t : Sandbox) (channel : Channel) (bytes : List UInt8) :
    ∃ outcome output errors, t.offer channel bytes = (outcome, { t with output, errors }) := by
  rw [Sandbox.offer]
  cases t.faults.printing channel (t.written channel) bytes with
  | none => cases channel <;> exact ⟨_, _, _, rfl⟩
  | some refusal => cases channel <;> exact ⟨_, _, _, rfl⟩

/-- Whether or not a run is given up when it writes to a stream, only the streams change. -/
theorem exists_runOn_tell (channel : Channel) (text : String) (t : Sandbox) :
    ∃ outcome output errors, runOn (tell channel text : Stage (StateM Sandbox) Unit) t
      = (outcome, { t with output, errors }) := by
  obtain ⟨outcome, output, errors, hoffer⟩ := exists_offer t channel (Text.Utf8.encode text)
  rw [tell, runOn_bind_ok (runOn_print t channel text), hoffer]
  cases outcome with
  | ok _ => exact ⟨_, _, _, rfl⟩
  | error cause =>
      obtain ⟨_, output', errors', hnotice⟩ := exists_offer { t with output, errors } .errors
        (Text.Utf8.encode (t.notice (channel.refusal cause)))
      refine ⟨.error .givenUp, output', errors', ?_⟩
      dsimp only
      rw [runOn_bind_ok (runOn_giveUp _ _), hnotice]
      rfl

theorem runOn_passOn_of_takesAll (h : t.TakesAll) (errors : String) :
    runOn (passOn errors : Stage (StateM Sandbox) Unit) t
      = (.ok (), t.writeErrors (Text.Utf8.encode errors)) := by
  rw [passOn]
  split
  · -- nothing is written, as nothing would be if the empty text were
    rename_i hempty
    obtain rfl := String.isEmpty_iff.mp hempty
    have hnothing : t.writeErrors (Text.Utf8.encode "") = t := by
      simp [Sandbox.writeErrors, Text.Utf8.encode]
    rw [hnothing]
    rfl
  · exact runOn_tell_of_takesAll h .errors errors

theorem exists_runOn_passOn (text : String) (t : Sandbox) :
    ∃ outcome output errors, runOn (passOn text : Stage (StateM Sandbox) Unit) t
      = (outcome, { t with output, errors }) := by
  rw [passOn]
  split
  · exact ⟨.ok (), t.output, t.errors, rfl⟩
  · exact exists_runOn_tell .errors text t

/-! ## Settings and bodies -/

theorem runOn_readSettings_unopened {file : String} {cause : HostError}
    (h : t.read file = .error (.opening cause)) :
    runOn (readSettings readers file : Stage (StateM Sandbox) Settings) t
      = (.error (.failed (.cannotOpen file cause)), t) := by
  rw [readSettings, runOn_bind_ok (runOn_readFile t file), h]
  rfl

/-- What the reader of settings makes of a file that was opened. -/
theorem runOn_readSettings_opened (readers : Readers) {file : String}
    {opened : Except HostError (List UInt8)} (h : opened? t file = some opened) :
    runOn (readSettings readers file : Stage (StateM Sandbox) Settings) t
      = ((readers.settings opened).mapError fun causes => .failed (.invalidSettings file causes),
        t) := by
  rw [readSettings, runOn_bind_ok (runOn_readFile t file)]
  rw [opened?] at h
  cases hread : t.read file with
  | ok bytes =>
      rw [hread] at h
      obtain rfl := Option.some.inj h
      rw [runOn_bind_ok (runOn_pure _ _)]
      dsimp only
      cases readers.settings (.ok bytes) <;> rfl
  | error e =>
      rw [hread] at h
      cases e with
      | opening cause => cases h
      | reading cause =>
          obtain rfl := Option.some.inj h
          rw [runOn_bind_ok (runOn_pure _ _)]
          dsimp only
          cases readers.settings (.error cause) <;> rfl

theorem exists_cause_of_opened?_eq_none {file : String} (h : opened? t file = none) :
    ∃ cause, t.read file = .error (.opening cause) := by
  rw [opened?] at h
  cases hread : t.read file with
  | ok bytes =>
      rw [hread] at h
      cases h
  | error e =>
      rw [hread] at h
      cases e with
      | opening cause => exact ⟨cause, rfl⟩
      | reading cause => cases h

/-- What a settings file gives is overlaid with what the command line asks for. -/
theorem runOn_loadSettings {file : String} {outcome : Except Stop Settings}
    (hconfig : invocation.config? = some file)
    (h : runOn (readSettings readers file : Stage (StateM Sandbox) Settings) t = (outcome, t)) :
    runOn (loadSettings readers invocation : Stage (StateM Sandbox) Settings) t
      = (outcome.map invocation.applyTo, t) := by
  rw [loadSettings, hconfig]
  cases outcome with
  | ok settings => exact runOn_bind_ok h
  | error stop => exact runOn_bind_error h

/-- Whatever comes of the settings, they are loaded without anything being changed. -/
theorem exists_runOn_loadSettings (readers : Readers) (invocation : Invocation) (t : Sandbox) :
    ∃ outcome, runOn (loadSettings readers invocation : Stage (StateM Sandbox) Settings) t
      = (outcome, t) := by
  cases hconfig : invocation.config? with
  | none =>
      rw [loadSettings, hconfig]
      exact ⟨_, rfl⟩
  | some file =>
      cases hopened : opened? t file with
      | none =>
          obtain ⟨cause, hread⟩ := exists_cause_of_opened?_eq_none hopened
          exact ⟨_, runOn_loadSettings hconfig (runOn_readSettings_unopened hread)⟩
      | some opened =>
          exact ⟨_, runOn_loadSettings hconfig (runOn_readSettings_opened readers hopened)⟩

/-- Of the machine, only standard input may be another when a body has been fetched. -/
theorem exists_runOn_fetchBody (file? : Option String) (t : Sandbox) :
    ∃ input, runOn (fetchBody file? : Stage (StateM Sandbox) _) t
      = (.ok (bodyBytes t file?), { t with input }) := by
  cases file? with
  | some file => exact ⟨t.input, rfl⟩
  | none =>
      have hrun : runOn (fetchBody none : Stage (StateM Sandbox) _) t
          = (.ok t.drain.1, t.drain.2) := rfl
      rw [hrun, bodyBytes, Sandbox.drain]
      cases t.faults.input with
      | none => exact ⟨[], rfl⟩
      | some cause => exact ⟨t.input, rfl⟩

theorem exists_runOn_readBody_unread {file? : Option String} {cause : HostError}
    (h : bodyBytes t file? = .error cause) :
    ∃ input, runOn (readBody file? : Stage (StateM Sandbox) String) t
      = (.error (.failed (bodyFailure file? cause)), { t with input }) := by
  obtain ⟨input, hrun⟩ := exists_runOn_fetchBody file? t
  refine ⟨input, ?_⟩
  rw [readBody, runOn_bind_ok hrun, h]
  rfl

/-- What is read of a body whose bytes were fetched. -/
theorem exists_runOn_readBody_read {file? : Option String} {bytes : List UInt8}
    (h : bodyBytes t file? = .ok bytes) :
    ∃ input, runOn (readBody file? : Stage (StateM Sandbox) String) t
      = ((Text.Utf8.decode? bytes).elim (.error (.failed (bodyFailure file? .invalidText))) .ok,
        { t with input }) := by
  obtain ⟨input, hrun⟩ := exists_runOn_fetchBody file? t
  refine ⟨input, ?_⟩
  rw [readBody, runOn_bind_ok hrun, h]
  dsimp only
  cases Text.Utf8.decode? bytes <;> rfl

/-! ## Tools -/

/-- The machine after the compiler was run where a source had been written. -/
def compiled (t : Sandbox) (written : FileTree) (object : String) : Sandbox :=
  { t with files := written }.afterAttached .compiler (compilerArgs (sourcePath object) object)

/-- The same machine with the source removed again, as far as it can be. -/
def built (t : Sandbox) (written : FileTree) (object : String) : Sandbox :=
  { compiled t written object with
    files := (compiled t written object).filesWithout (sourcePath object) }

/-- What becomes of a tool does not hang on the files. -/
theorem outcome_withFiles (t : Sandbox) (files : FileTree) :
    { t with files }.outcome = t.outcome :=
  rfl

section

variable {source object : String}

theorem runOn_buildObject_unwritten {cause : HostError}
    (hwrite : (t.write (sourcePath object) (Text.Utf8.encode source)).1 = .error cause) :
    runOn (buildObject source object : Stage (StateM Sandbox) Unit) t
      = (.error (.failed (.cannotCreate (sourcePath object) cause)),
        { t with files := (t.write (sourcePath object) (Text.Utf8.encode source)).2 }) := by
  rw [buildObject, runOn_bind_ok (runOn_writeFile t _ _), hwrite]
  rfl

variable (hwrite : (t.write (sourcePath object) (Text.Utf8.encode source)).1 = .ok ())

include hwrite

theorem runOn_buildObject_lost {cause : HostError} (houtcome : t.outcome .compiler = .error cause) :
    runOn (buildObject source object : Stage (StateM Sandbox) Unit) t
      = (.error (.failed (.toolNotStarted .compiler cause)),
        built t (t.write (sourcePath object) (Text.Utf8.encode source)).2 object) := by
  rw [buildObject, runOn_bind_ok (runOn_writeFile t _ _), hwrite]
  dsimp only
  rw [runOn_bind_ok (runOn_runAttached _ _ _), runOn_bind_ok (runOn_removeFile _ _)]
  rw [outcome_withFiles, houtcome]
  rfl

theorem runOn_buildObject_ended {reply : ToolReply} (houtcome : t.outcome .compiler = .ok reply) :
    runOn (buildObject source object : Stage (StateM Sandbox) Unit) t
      = (if reply.status.succeeded then .ok ()
          else .error (.failed (.toolFailed .compiler reply.status)),
        built t (t.write (sourcePath object) (Text.Utf8.encode source)).2 object) := by
  rw [buildObject, runOn_bind_ok (runOn_writeFile t _ _), hwrite]
  dsimp only
  rw [runOn_bind_ok (runOn_runAttached _ _ _), runOn_bind_ok (runOn_removeFile _ _)]
  rw [outcome_withFiles, houtcome]
  show runOn (if reply.status.succeeded then pure () else fail _) _ = _
  cases reply.status.succeeded <;> rfl

end

theorem runOn_disassemble_lost {cause : HostError}
    (houtcome : t.outcome .disassembler = .error cause) (scope : Scope) (path? : Option String) :
    runOn (disassemble scope path? : Stage (StateM Sandbox) String) t
      = (.error (.failed (.toolNotStarted .disassembler cause)),
        t.afterCaptured .disassembler (scope.disassemblerArgs path?)) := by
  rw [disassemble, runOn_bind_ok (runOn_runCaptured t _ _), houtcome]
  rfl

/-- What is made of a disassembler that has ended, once its errors have been passed on. -/
def listingOf (reply : ToolReply) : Except Stop String :=
  if !reply.status.succeeded then .error (.failed (.toolFailed .disassembler reply.status))
  else if reply.output.isEmpty then .error (.failed (.noOutput .disassembler))
  else .ok (Text.Utf8.decodeLossy reply.output)

theorem runOn_disassemble_ended (htakes : t.TakesAll) {reply : ToolReply}
    (houtcome : t.outcome .disassembler = .ok reply) (scope : Scope) (path? : Option String) :
    runOn (disassemble scope path? : Stage (StateM Sandbox) String) t
      = (listingOf reply,
        (t.afterCaptured .disassembler (scope.disassemblerArgs path?)).writeErrors
          (Text.Utf8.encode (Text.Utf8.decodeLossy reply.errors))) := by
  have htakes' : (t.afterCaptured .disassembler (scope.disassemblerArgs path?)).TakesAll := by
    rw [Sandbox.afterCaptured]
    cases t.reply? .disassembler <;> exact htakes
  rw [disassemble, runOn_bind_ok (runOn_runCaptured t _ _), houtcome]
  dsimp only
  rw [runOn_bind_ok (runOn_passOn_of_takesAll htakes' _), listingOf]
  split
  · rfl
  · split <;> rfl

/-- Whatever comes of the disassembler, only its start is recorded, and only the streams change
then. -/
theorem exists_runOn_disassemble (scope : Scope) (path? : Option String) (t : Sandbox) :
    ∃ outcome output errors, runOn (disassemble scope path? : Stage (StateM Sandbox) String) t
      = (outcome, { t.afterCaptured .disassembler (scope.disassemblerArgs path?) with
          output, errors }) := by
  cases houtcome : t.outcome .disassembler with
  | error cause => exact ⟨_, _, _, runOn_disassemble_lost houtcome scope path?⟩
  | ok reply =>
      rw [disassemble, runOn_bind_ok (runOn_runCaptured t _ _), houtcome]
      obtain ⟨outcome, output, errors, hpass⟩ := exists_runOn_passOn
        (Text.Utf8.decodeLossy reply.errors)
        (t.afterCaptured .disassembler (scope.disassemblerArgs path?))
      dsimp only
      cases outcome with
      | error stop => exact ⟨_, _, _, runOn_bind_error hpass⟩
      | ok _ =>
          refine ⟨listingOf reply, output, errors, ?_⟩
          rw [runOn_bind_ok hpass, listingOf]
          split
          · rfl
          · split <;> rfl

/-! ## The result -/

theorem runOn_collect (seed? : Option UInt64) (text : String) (t : Sandbox) :
    runOn (collect seed? text : Stage (StateM Sandbox) (List Symbol)) t
      = ((Listing.symbolsOf (Xoshiro.ofSeed (seed?.getD t.entropy)) text).mapError
          fun cause => .failed (.malformedBytes cause), t) := by
  cases seed? with
  | some seed =>
      rw [collect, runOn_bind_ok (runOn_pure _ _), Option.getD_some]
      dsimp only
      cases Listing.symbolsOf (Xoshiro.ofSeed seed) text <;> rfl
  | none =>
      rw [collect, runOn_bind_ok (runOn_entropy t), Option.getD_none]
      dsimp only
      cases Listing.symbolsOf (Xoshiro.ofSeed t.entropy) text <;> rfl

section

variable {file text : String}

theorem runOn_deliver_unwritten {cause : HostError}
    (hwrite : (t.write file (Text.Utf8.encode text)).1 = .error cause) :
    runOn (deliver (some file) text : Stage (StateM Sandbox) Unit) t
      = (.error (.failed (.cannotWrite file cause)),
        { t with files := (t.write file (Text.Utf8.encode text)).2 }) := by
  rw [deliver, runOn_bind_ok (runOn_writeFile t _ _), hwrite]
  rfl

theorem runOn_deliver_written (htakes : t.TakesAll)
    (hwrite : (t.write file (Text.Utf8.encode text)).1 = .ok ()) :
    runOn (deliver (some file) text : Stage (StateM Sandbox) Unit) t
      = (.ok (), { t with files := (t.write file (Text.Utf8.encode text)).2 }.writeErrors
          (Text.Utf8.encode ("  > " ++ file ++ "\n"))) := by
  have htakes' : { t with files := (t.write file (Text.Utf8.encode text)).2 }.TakesAll := htakes
  rw [deliver, runOn_bind_ok (runOn_writeFile t _ _), hwrite]
  exact runOn_tell_of_takesAll htakes' .errors _

end

/-- Whatever comes of the writing of a result, only the file that was named may be another. -/
theorem exists_runOn_deliver (output? : Option String) (text : String) (t : Sandbox) :
    ∃ outcome output errors, runOn (deliver output? text : Stage (StateM Sandbox) Unit) t
      = (outcome, { t with
          files := output?.elim t.files fun file => (t.write file (Text.Utf8.encode text)).2
          output, errors }) := by
  cases output? with
  | none => exact exists_runOn_tell .output text t
  | some file =>
      cases hwrite : (t.write file (Text.Utf8.encode text)).1 with
      | error cause => exact ⟨_, _, _, runOn_deliver_unwritten hwrite⟩
      | ok _ =>
          rw [deliver, runOn_bind_ok (runOn_writeFile t _ _), hwrite]
          exact exists_runOn_tell .errors _ _

end ByteEmbed.Session
