import Mathlib.Data.List.Basic
import ByteEmbed.Proofs.Program.Cleared
import ByteEmbed.Proofs.Program.Stages
import ByteEmbed.Proofs.Text.Utf8

/-!
# ByteEmbed.Proofs.Program.InOrder — a run fails in order and without output.

The stages are put together to a whole run.  If something is wrong with any of its steps, the run
reports the first of them and nothing else, starts no tool of a later step, and leaves standard
output and the files as they were, apart from temporary ones (`Failed`).  If nothing is wrong, the
declarations go to one place (`Completed`).  So it goes whatever reads the command line and the
settings, and whatever goes wrong with files and tools.

Two things are not as one would have them.  The compiler has the run's own standard output, so that
what it writes there stands in front of the declarations.  And a stream that refuses a text is no
failure of a step: the run is given up on the spot, with another exit status and without a report.
For the order of failures the streams are therefore supposed to take everything
(`Sandbox.TakesAll`).
-/

namespace ByteEmbed.Session

/-- What a run leaves that failed at `step`, after the steps `earlier` had succeeded. -/
structure Failed (readers : Readers) (invocation : Invocation) (s : Sandbox) (earlier : List Step)
    (step : Step) (failure : Failure) (t : Sandbox) : Prop where
  tools : t.calls.map ToolCall.tool
    = s.calls.map ToolCall.tool ++ (earlier ++ [step]).flatMap (started s)
  output : t.output = s.output ++ (earlier ++ [step]).flatMap (printed s)
  errors : t.errors = s.errors ++ (told readers invocation s earlier ++ shown s step)
    ++ Text.Utf8.encode failure.report
  /-- Besides the temporary files, a result that could not be written may have been begun. -/
  files : ∀ path, t.files.entry? path = s.files.entry? path ∨ IsTemporary invocation s path
    ∨ step = .result ∧ IsResult invocation s path
  /-- Where files can be removed, the temporary ones are gone. -/
  cleared : FreshNames invocation s → (∀ name, s.faults.removing name = false) →
    ∀ path, t.files.entry? path = s.files.entry? path ∨ IsBrokenOff invocation s path
      ∨ step = .result ∧ IsResult invocation s path

/-- What a run leaves that wrote `text` to its one place: the file that was named, or else standard
output. -/
structure Completed (readers : Readers) (invocation : Invocation) (s : Sandbox) (text : String)
    (t : Sandbox) : Prop where
  tools : t.calls.map ToolCall.tool
    = s.calls.map ToolCall.tool ++ (stepsOf invocation.mode).flatMap (started s)
  output : t.output = s.output ++ ((stepsOf invocation.mode).flatMap (printed s)
    ++ invocation.output?.elim (Text.Utf8.encode text) fun _ => [])
  errors : t.errors = s.errors ++ told readers invocation s (stepsOf invocation.mode)
  result : ∀ file, invocation.output? = some file →
    t.files.read s.workingDirectory file = .ok (Text.Utf8.encode text)
  files : ∀ path, t.files.entry? path = s.files.entry? path ∨ IsTemporary invocation s path
    ∨ IsResult invocation s path
  cleared : FreshNames invocation s → (∀ name, s.faults.removing name = false) →
    ∀ path, t.files.entry? path = s.files.entry? path ∨ IsResult invocation s path

variable {readers : Readers} {invocation : Invocation} {s t : Sandbox} {before : List Step}

/-! ## The result -/

/-- The account of settings that were loaded. -/
theorem reached_settings {settings : Settings} (h : Taken readers invocation s before .settings t)
    (hsettings : settings? readers invocation s = some settings) :
    Reached readers invocation s (before ++ [.settings])
      (t.writeErrors (Text.Utf8.encode
        (stepLine 1 ("Disassemble (" ++ settings.scope.name ++ ")")))) := by
  have hsaid : announced readers invocation s .settings
      = stepLine 1 ("Disassemble (" ++ settings.scope.name ++ ")") := by
    rw [announced, hsettings]
    rfl
  rw [← hsaid]
  exact h.reached

/-- The account of a listing that was collected. -/
theorem reached_listing {symbols : List Symbol} (h : Taken readers invocation s before .listing t)
    (hsymbols : symbols? invocation s = some symbols) :
    Reached readers invocation s (before ++ [.listing])
      (t.writeErrors (Text.Utf8.encode
        ((if invocation.verbose then Summary.text symbols else "")
          ++ stepLine 3 s!"Render {symbols.length} Symbols"))) := by
  have hsaid : announced readers invocation s .listing
      = (if invocation.verbose then Summary.text symbols else "")
        ++ stepLine 3 s!"Render {symbols.length} Symbols" := by
    rw [announced, hsymbols]
    rfl
  rw [← hsaid]
  exact h.reached

/-- The steps in which a result is made, all but the writing of it. -/
def stepsToResult (mode : Mode) : List Step :=
  [.settings] ++ ((compileSteps mode ++ [.disassembler]) ++ [.listing])

theorem stepsOf_eq (mode : Mode) : stepsOf mode = stepsToResult mode ++ [.result] := by
  simp [stepsOf, stepsToResult]

/-- How the result of a run is made. -/
theorem goes_produce (htakes : s.TakesAll) :
    Goes readers invocation s [] (stepsToResult invocation.mode) (produce readers invocation) s
      fun text t => result? readers invocation s = some text
        ∧ Reached readers invocation s (stepsToResult invocation.mode) t
        ∧ t.files = listedFiles invocation s := by
  have hstart : Reached readers invocation s [] s := .refl s
  rw [produce]
  refine .bind goes_loadSettings ?_
  rintro settings t ⟨hsettings, ht⟩
  obtain rfl := ht.symm
  have hloaded := reached_settings (hstart.taken rfl) hsettings
  refine .following (runOn_tell_of_takesAll htakes .errors _)
    (.bind (goes_listing htakes hloaded rfl rfl settings.scope) ?_)
  rintro text t₁ ⟨hlisted, hfiles, reply, houtcome, rfl⟩
  have hdisassembled := hlisted.reached
  have htakes₁ : t₁.TakesAll := hlisted.takesAll htakes
  rw [List.append_assoc] at hdisassembled
  refine .following (runOn_tell_of_takesAll htakes₁ .errors _)
    (.lastly (goes_collect hdisassembled houtcome) ?_)
  rintro symbols t₂ ⟨hsymbols, rfl⟩
  have hresult : result? readers invocation s = some (settings.layout.declareAll symbols) := by
    simp [result?, hsettings, hsymbols]
  have hcollected := reached_listing (hdisassembled.taken rfl) hsymbols
  rw [List.append_assoc] at hcollected
  have htakes₂ := takesAll_writeTo htakes₁ (Text.Utf8.encode (stepLine 2 "Parse Dump")) .errors
  -- the summary and the line after it are written one after the other
  split
  · rename_i hverbose
    rw [if_pos hverbose, Text.Utf8.encode_append, ← Sandbox.writeErrors_writeErrors] at hcollected
    refine .following (runOn_tell_of_takesAll htakes₂ .errors _)
      (.following (runOn_tell_of_takesAll (takesAll_writeTo htakes₂ _ _) .errors _) ?_)
    exact .nil (runOn_pure _ _) ⟨hresult, hcollected, hfiles⟩
  · rename_i hverbose
    rw [if_neg hverbose, String.empty_append] at hcollected
    refine .following (runOn_tell_of_takesAll htakes₂ .errors _) ?_
    exact .nil (runOn_pure _ _) ⟨hresult, hcollected, hfiles⟩

/-- What is true of a machine when `text` has been delivered, apart from the files that are not the
result's. -/
def Delivered (readers : Readers) (invocation : Invocation) (s : Sandbox) (steps : List Step)
    (text : String) (t : Sandbox) : Prop :=
  s.Since t (steps.flatMap (started s))
      (steps.flatMap (printed s)
        ++ invocation.output?.elim (Text.Utf8.encode text) fun _ => [])
      (told readers invocation s steps)
    ∧ ∀ file, invocation.output? = some file →
      t.files.read s.workingDirectory file = .ok (Text.Utf8.encode text)

/-- How the result is written. -/
theorem goes_deliver {text : String} (htakes : s.TakesAll)
    (h : Reached readers invocation s before t) (hfiles : t.files = listedFiles invocation s)
    (htext : result? readers invocation s = some text) :
    Goes readers invocation s before [.result] (deliver invocation.output? text) t
      fun _ t' => Delivered readers invocation s (before ++ [.result]) text t' := by
  have htaken : Taken readers invocation s before .result t := h.taken rfl
  have hwriting : t.write = { s with files := listedFiles invocation s }.write := by
    rw [h.write, hfiles]
  refine .cons (fun failure hfault => ?_) (fun hclean => ?_)
  · cases hfault with
    | resultNotWritten houtput htext' hwrite =>
        obtain rfl := Option.some.inj (htext.symm.trans htext')
        rw [← hwriting] at hwrite
        rw [houtput]
        exact ⟨_, runOn_deliver_unwritten hwrite, htaken.withFiles _⟩
    | toolNotRun htool | toolFailed htool => cases htool
  · cases houtput : invocation.output? with
    | none =>
        have hsilent : announced readers invocation s .result = "" := by
          rw [announced, houtput]
          rfl
        have hreached := htaken.reached_of_silent hsilent
        refine .nil (runOn_tell_of_takesAll (h.takesAll htakes) .output text) ⟨?_, ?_⟩
        · rw [houtput]
          exact hreached.writeOutput (Text.Utf8.encode text)
        · intro file hfile
          rw [houtput] at hfile
          cases hfile
    | some file =>
        have hsaid : announced readers invocation s .result = "  > " ++ file ++ "\n" := by
          rw [announced, houtput]
          rfl
        have hreached := htaken.reached
        rw [hsaid] at hreached
        cases hwrite : (t.write file (Text.Utf8.encode text)).1 with
        | error cause =>
            rw [hwriting] at hwrite
            exact absurd (.resultNotWritten houtput htext hwrite) (hclean _)
        | ok _ =>
            refine .nil (runOn_deliver_written (h.takesAll htakes) hwrite) ⟨?_, ?_⟩
            · rw [houtput, Option.elim_some, List.append_nil]
              exact hreached.withFiles _
            · intro other hother
              rw [houtput] at hother
              obtain rfl := Option.some.inj hother
              rw [← h.workingDirectory]
              exact Sandbox.read_of_write hwrite

/-! ## The whole run -/

/-- How all the stages of a run go. -/
theorem goes_stages (htakes : s.TakesAll) :
    Goes readers invocation s [] (stepsOf invocation.mode) (stages readers invocation) s
      fun _ t => ∃ text, result? readers invocation s = some text
        ∧ Delivered readers invocation s (stepsOf invocation.mode) text t := by
  rw [stepsOf_eq, stages]
  refine .bind (goes_produce htakes) ?_
  rintro text t ⟨htext, hreached, hfiles⟩
  refine (goes_deliver htakes hreached hfiles htext).imp ?_
  exact fun _ t' hdelivered => ⟨text, htext, hdelivered⟩

/-- Whatever the machine does, a source is compiled within the temporary files of its run. -/
theorem sourceWithin_temporaries (invocation : Invocation) (s : Sandbox) :
    SourceWithin (IsTemporary invocation s) (fun _ => True) invocation s := by
  intro scope routine source input output errors hmode _
  have hcovers : ∀ name ∈ temporaries invocation s,
      { s with input, output, errors }.Covers (IsTemporary invocation s) name :=
    fun name hname _ hpath => ⟨name, hname, hpath⟩
  rw [temporaries_of_routine? hmode] at hcovers
  exact within_disassembleSource (hcovers _ List.mem_cons_self)
    (hcovers _ (List.mem_cons_of_mem _ List.mem_cons_self)) (fun _ => trivial) scope

/-- What a run leaves in which a step fails, before it reports that: where its source is compiled
within the entries of some paths, so is the run, but for the result. -/
theorem exists_stages_of_firstFault (htakes : s.TakesAll) {earlier : List Step} {step : Step}
    {failure : Failure}
    (hfirst : FirstFault readers invocation s (stepsOf invocation.mode) earlier step failure) :
    ∃ t, runOn (stages readers invocation) s = (.error (.failed failure), t)
      ∧ Taken readers invocation s earlier step t
      ∧ ∀ A P, (invocation.mode.routine? = none → ∀ call, P call) →
        SourceWithin A P invocation s →
        ∀ path, t.files.entry? path = s.files.entry? path ∨ A path
          ∨ step = .result ∧ IsResult invocation s path := by
  rw [stepsOf_eq] at hfirst
  rcases hfirst.append with hmaking | ⟨hclean, rest, rfl, hwriting⟩
  · -- the result is not even written
    obtain ⟨t, hrun, htaken⟩ := (goes_produce htakes).fails earlier step failure hmaking
    refine ⟨t, runOn_bind_error hrun, htaken, fun A P hdump hsource path => ?_⟩
    have hwithin := within_produce readers hdump hsource
    rw [Always, hrun] at hwithin
    exact (hwithin.files.entries path).imp_right .inl
  · obtain ⟨t, hrun, htaken⟩ := (goes_stages htakes).fails _ step failure (stepsOf_eq _ ▸ hfirst)
    refine ⟨t, hrun, htaken, fun A P hdump hsource path => ?_⟩
    have hwithin := within_stages readers hdump hsource
    rw [Always, hrun] at hwithin
    have hstep : step = .result := by
      rcases hwriting.cons with ⟨-, rfl⟩ | ⟨-, more, -, hmore⟩
      · rfl
      · obtain ⟨⟨later, horder⟩, -, -⟩ := hmore
        cases more <;> cases horder
    exact (hwithin.files.entries path).imp_right (.imp_right fun hresult => ⟨hstep, hresult⟩)

/-- Where nothing is wrong with a run, the writing of its source does not break off. -/
theorem not_isBrokenOff (hclean : Clean readers invocation s (stepsOf invocation.mode))
    (path : Path) : ¬ IsBrokenOff invocation s path := by
  rintro ⟨routine, source, hmode, hsource, ⟨count, cause, hfault⟩, -⟩
  have hwrite : ∃ cause, (s.write (sourceOf s routine) (Text.Utf8.encode source)).1
      = .error cause := by
    rw [Sandbox.write, hfault]
    dsimp only
    rw [Sandbox.put]
    split <;> exact ⟨_, rfl⟩
  obtain ⟨cause', hwrite⟩ := hwrite
  have hmem : Step.source ∈ stepsOf invocation.mode := by simp [stepsOf, compileSteps, hmode]
  exact hclean _ hmem _ (.sourceNotWritten hmode hsource hwrite)

/-- A run ends in what is concluded from its stages. -/
theorem run_run {outcome : Except Stop Unit}
    (h : runOn (stages readers invocation) s = (outcome, t)) :
    (run readers invocation : StateM Sandbox Nat).run s
      = (conclude outcome : StateM Sandbox Nat).run t := by
  have hstages : (stages readers invocation : Stage (StateM Sandbox) Unit).run.run s
      = (outcome, t) := h
  rw [run, StateT.run_bind, hstages]
  rfl

theorem conclude_failed (htakes : t.TakesAll) (failure : Failure) :
    (conclude (.error (.failed failure)) : StateM Sandbox Nat).run t
      = (failedStatus, t.writeErrors (Text.Utf8.encode failure.report)) := by
  have htell : (tell .errors failure.report : Stage (StateM Sandbox) Unit).run.run t
      = (.ok (), t.writeErrors (Text.Utf8.encode failure.report)) :=
    runOn_tell_of_takesAll htakes .errors failure.report
  rw [conclude, StateT.run_bind, htell]
  rfl

/-- A result is that of the settings, and of the symbols of what the disassembler wrote. -/
theorem exists_of_result? {text : String} (h : result? readers invocation s = some text) :
    ∃ settings reply symbols, settings? readers invocation s = some settings
      ∧ s.outcome .disassembler = .ok reply
      ∧ Listing.symbolsOf (Xoshiro.ofSeed (invocation.seed?.getD s.entropy))
        (Text.Utf8.decodeLossy reply.output) = .ok symbols
      ∧ text = settings.layout.declareAll symbols := by
  obtain ⟨settings, hsettings, hrest⟩ := Option.bind_eq_some_iff.mp h
  obtain ⟨symbols, hsymbols, htext⟩ := Option.bind_eq_some_iff.mp hrest
  obtain ⟨reply, hreply, hlisting⟩ := Option.bind_eq_some_iff.mp hsymbols
  exact ⟨settings, reply, symbols, hsettings, eq_ok_of_toOption hreply,
    eq_ok_of_toOption hlisting, (Option.some.inj htext).symm⟩

/-- **A run fails in order and without output.** When a command line asks for a run, on a machine
whose streams take everything, either nothing is wrong with its steps or there is a first fault
among them.  In the latter case the exit status is one and that fault is reported, no tool of a
later step is started, nothing is written to standard output but what the compiler may write there,
and no other files are changed than the temporary ones, which are gone again where files can be
removed, and, if it is the writing of the result that failed, the result's.  In the former the exit
status is zero, and the declarations of the symbols that the disassembler's output is parsed into
are in the file that was named, or else on standard output. -/
theorem serve_in_order (readers : Readers) {words : List String} {invocation : Invocation}
    (h : readers.commandLine words = .run invocation) {s : Sandbox} (htakes : s.TakesAll) :
    (Clean readers invocation s (stepsOf invocation.mode)
      ∨ ∃ earlier step failure,
        FirstFault readers invocation s (stepsOf invocation.mode) earlier step failure)
    ∧ (∀ earlier step failure,
      FirstFault readers invocation s (stepsOf invocation.mode) earlier step failure →
      ∃ t, (serveWith readers words : StateM Sandbox Nat).run s = (1, t)
        ∧ Failed readers invocation s earlier step failure t)
    ∧ (Clean readers invocation s (stepsOf invocation.mode) →
      ∃ t settings reply symbols, (serveWith readers words : StateM Sandbox Nat).run s = (0, t)
        ∧ settings? readers invocation s = some settings
        ∧ s.outcome .disassembler = .ok reply
        ∧ Listing.symbolsOf (Xoshiro.ofSeed (invocation.seed?.getD s.entropy))
          (Text.Utf8.decodeLossy reply.output) = .ok symbols
        ∧ Completed readers invocation s (settings.layout.declareAll symbols) t) := by
  have hserve : (serveWith readers words : StateM Sandbox Nat) = run readers invocation := by
    rw [serveWith, h]
  rw [hserve]
  refine ⟨clean_or_firstFault _ _ _ _, fun earlier step failure hfirst => ?_, fun hclean => ?_⟩
  · obtain ⟨t, hrun, htaken, hfiles⟩ := exists_stages_of_firstFault htakes hfirst
    refine ⟨_, (run_run hrun).trans (conclude_failed (htaken.takesAll htakes) failure), ?_⟩
    exact
      { tools := htaken.tools
        output := htaken.output
        errors := by rw [Sandbox.writeErrors, htaken.errors]
        files := hfiles _ _ (fun _ _ => trivial) (sourceWithin_temporaries invocation s)
        cleared := fun hfresh hremoval =>
          hfiles _ _ findsTemporaries_of_dump (sourceWithin_of_fresh hremoval hfresh) }
  · obtain ⟨_, t, hrun, text, htext, hdelivered, hread⟩ := (goes_stages htakes).ends hclean
    obtain ⟨settings, reply, symbols, hsettings, houtcome, hsymbols, rfl⟩ := exists_of_result? htext
    have hwithin := within_stages readers (fun _ _ => trivial)
      (sourceWithin_temporaries invocation s)
    rw [Always, hrun] at hwithin
    refine ⟨t, settings, reply, symbols, run_run hrun, hsettings, houtcome, hsymbols, ?_⟩
    exact
      { tools := hdelivered.tools
        output := hdelivered.output
        errors := hdelivered.errors
        result := hread
        files := hwithin.files.entries
        cleared := fun hfresh hremoval path => by
          have hwithin := within_stages readers findsTemporaries_of_dump
            (sourceWithin_of_fresh hremoval hfresh)
          rw [Always, hrun] at hwithin
          exact (hwithin.files.entries path).imp_right fun hpath =>
            hpath.resolve_left (not_isBrokenOff hclean path) }

/-! ## Examples of machines -/

/-- A machine without files, on which no tool can be started but the given disassembler. -/
def bareMachine (disassembler? : Option ToolReply) : Sandbox :=
  { files := ⟨[]⟩, workingDirectory := [], temporaryDirectory := "/tmp", tag := "0", input := []
    entropy := 0, compiler? := none, disassembler?, output := [], errors := [], calls := [] }

/-- The run of a mode without options. -/
def plainRun (mode : Mode) : Invocation :=
  { mode, config? := none, all := false, ctype? := none, tabSize? := none, maxWidth? := none
    seed? := none, output? := none, verbose := false }

/-- A disassembler that lists one symbol. -/
def oneSymbol : ToolReply :=
  { output := Text.Utf8.encode "<f>:\n\t90\n", errors := [], status := .exited 0 }

/-- The declaration of that symbol. -/
def oneDeclaration : String :=
  "__attribute__((section(\".text#\")))\nconst char f[1] = (\n    \"\\x90\"\n);\n"

/-- A function that cannot be compiled, with a name that is none, and a listing of one symbol. -/
theorem serve_in_order_two_runs :
    Readers.standard.commandLine ["asm", "9f"] = .run (plainRun (.asm "9f" none))
    ∧ (bareMachine none).TakesAll
    ∧ FirstFault .standard (plainRun (.asm "9f" none)) (bareMachine none)
      (stepsOf (.asm "9f" none)) [.settings] .name (.invalidName "9f")
    ∧ Fault .standard (plainRun (.asm "9f" none)) (bareMachine none) .compiler
      (.toolNotStarted .compiler .notFound)
    ∧ (∃ t, (serve ["asm", "9f"] : StateM Sandbox Nat).run (bareMachine none) = (1, t)
      ∧ t.output = [])
    ∧ Readers.standard.commandLine ["dump"] = .run (plainRun (.dump none))
    ∧ Clean .standard (plainRun (.dump none)) (bareMachine (some oneSymbol)) (stepsOf (.dump none))
    ∧ ∃ t, (serve ["dump"] : StateM Sandbox Nat).run (bareMachine (some oneSymbol)) = (0, t)
      ∧ t.output = Text.Utf8.encode oneDeclaration := by
  have hasm : Readers.standard.commandLine ["asm", "9f"] = .run (plainRun (.asm "9f" none)) := by
    decide +kernel
  have hdump : Readers.standard.commandLine ["dump"] = .run (plainRun (.dump none)) := by
    decide +kernel
  have htakes : ∀ disassembler?, (bareMachine disassembler?).TakesAll := fun _ _ _ _ => rfl
  have hlisting : Listing.symbolsOf (Xoshiro.ofSeed 0) (Text.Utf8.decodeLossy oneSymbol.output)
      = .ok [{ sectionName := ".text", name := "f", realName := "f", bytes := [0x90] }] := by
    decide +kernel
  have hfirst : FirstFault .standard (plainRun (.asm "9f" none)) (bareMachine none)
      (stepsOf (.asm "9f" none)) [.settings] .name (.invalidName "9f") := by
    have hmode : (plainRun (.asm "9f" none)).mode.routine? = some ⟨"9f", none, .asm⟩ := rfl
    refine ⟨⟨_, rfl⟩, fun step hstep failure hfault => ?_, .nameInvalid hmode (by decide)⟩
    obtain rfl := List.mem_singleton.mp hstep
    cases hfault <;> contradiction
  have hclean : Clean .standard (plainRun (.dump none)) (bareMachine (some oneSymbol))
      (stepsOf (.dump none)) := by
    have hcompiler : ∀ step ∈ stepsOf (.dump none), step.tool? ≠ some .compiler := by decide
    intro step hstep failure hfault
    cases hfault with
    | listingMalformed houtcome hmalformed =>
        cases houtcome
        cases hlisting.symm.trans hmalformed
    | @toolNotRun _ tool _ htool houtcome =>
        cases tool with
        | compiler => exact absurd htool (hcompiler step hstep)
        | disassembler => cases houtcome
    | @toolFailed _ tool _ htool houtcome hstatus =>
        cases tool with
        | compiler => exact absurd htool (hcompiler step hstep)
        | disassembler =>
            cases houtcome
            cases hstatus
    | disassemblerSilent houtcome hstatus houtput =>
        cases houtcome
        revert houtput
        decide +kernel
    | settingsNotOpened hconfig | settingsRefused hconfig => cases hconfig
    | nameInvalid hmode | bodyNotRead hmode | bodyNoText hmode | sourceNotWritten hmode =>
        cases hmode
    | resultNotWritten houtput => cases houtput
  obtain ⟨-, hfails, -⟩ := serve_in_order .standard hasm (htakes none)
  obtain ⟨t, hrun, hfailed⟩ := hfails _ _ _ hfirst
  obtain ⟨-, -, hends⟩ := serve_in_order .standard hdump (htakes (some oneSymbol))
  obtain ⟨t', settings, reply, symbols, hrun', hsettings, houtcome, hsymbols, hcompleted⟩ :=
    hends hclean
  cases hsettings
  cases houtcome
  cases hlisting.symm.trans hsymbols
  refine ⟨hasm, htakes none, hfirst, .toolNotRun rfl rfl, ⟨t, hrun, hfailed.output⟩, hdump, hclean,
    t', hrun', ?_⟩
  rw [hcompleted.output]
  decide +kernel

/-- A machine with a directory to work in and an empty one for temporary files, a compiler that
makes an object of one byte and writes some bytes to standard output, and a disassembler that lists
one symbol. -/
def smallMachine (note : List UInt8) : Sandbox :=
  { bareMachine (some oneSymbol) with
    files := ⟨[(["work"], .directory), (["tmp"], .directory)]⟩
    workingDirectory := ["work"]
    compiler? := some
      { reply := { output := note, errors := [], status := .exited 0 }, object? := some [0x90] } }

/-- A machine of which one stream takes nothing. -/
def fullMachine (full : Channel) : Sandbox :=
  { bareMachine (some oneSymbol) with
    faults :=
      { printing := fun channel _ _ =>
          if channel = full then some (0, .other "No space left on device (os error 28)")
          else none } }

/-- What the compiler writes to standard output stands in front of the declarations, and a run that
a stream refuses a text of ends with neither of the two statuses and without a report. -/
theorem output_shared_or_refused :
    (((serve ["asm", "f"] : StateM Sandbox Nat).run
        (smallMachine (Text.Utf8.encode "note\n"))).1 = 0
      ∧ ((serve ["asm", "f"] : StateM Sandbox Nat).run
        (smallMachine (Text.Utf8.encode "note\n"))).2.output
        = Text.Utf8.encode ("note\n" ++ oneDeclaration))
    ∧ (((serve ["dump"] : StateM Sandbox Nat).run (fullMachine .output)).1 = 101
      ∧ ((serve ["dump"] : StateM Sandbox Nat).run (fullMachine .output)).2.output = []
      ∧ ((serve ["dump"] : StateM Sandbox Nat).run (fullMachine .output)).2.errors
        = Text.Utf8.encode (stepLine 1 "Disassemble (exec)" ++ stepLine 2 "Parse Dump"
          ++ stepLine 3 "Render 1 Symbols"
          ++ (fullMachine .output).notice
            (Channel.output.refusal (.other "No space left on device (os error 28)"))))
    ∧ ((serve ["dump"] : StateM Sandbox Nat).run (fullMachine .errors)).1 = 101 := by
  decide +kernel

end ByteEmbed.Session
