import ByteEmbed.Proofs.Program.InOrder

/-!
# ByteEmbed.Proofs.Program.Temporary — no temporary file outlives a run, and none goes too early.

What is true of the temporary files while a listing is made is true of whole runs, whatever comes of
them: with success, with a failure of any stage, given up, or not even begun, everything is as it
was in the end.

Two files may be others.  The one that the command line names for the result is put where it says,
which may be next to the temporary ones.  And a temporary source whose writing broke off half way
may stay (`IsBrokenOff`).
-/

namespace ByteEmbed.Session

/-- Whatever is concluded from the stages of a run, only the streams change. -/
theorem exists_conclude (outcome : Except Stop Unit) (t : Sandbox) :
    ∃ status output errors, (conclude outcome : StateM Sandbox Nat).run t
      = (status, { t with output, errors }) := by
  cases outcome with
  | ok _ => exact ⟨0, t.output, t.errors, rfl⟩
  | error stop =>
      cases stop with
      | givenUp => exact ⟨givenUpStatus, t.output, t.errors, rfl⟩
      | failed failure =>
          obtain ⟨told, output, errors, hrun⟩ := exists_runOn_tell .errors failure.report t
          have htell : (tell .errors failure.report : Stage (StateM Sandbox) Unit).run.run t
              = (told, { t with output, errors }) := hrun
          rw [conclude, StateT.run_bind, htell]
          cases told with
          | ok _ => exact ⟨failedStatus, output, errors, rfl⟩
          | error _ => exact ⟨givenUpStatus, output, errors, rfl⟩

/-- **No temporary file outlives a run, and none goes too early.** Whatever reads the command line
and the settings, whatever words a command line is made of and whatever goes wrong, if files can be
removed and nothing stands under the names of the temporary files before, every entry is as it was
when the run has ended, but for the file that the run was told to write its result to, and for a
temporary source whose writing broke off; and a disassembler that was started on an object found
what the compiler had written, and no source. -/
theorem serve_leaves_no_temporaries (readers : Readers) (words : List String) (s : Sandbox)
    (hremoval : ∀ name, s.faults.removing name = false)
    (hfresh : ∀ invocation, readers.commandLine words = .run invocation →
      FreshNames invocation s) :
    ∃ status t, (serveWith readers words : StateM Sandbox Nat).run s = (status, t)
      ∧ (∀ path, t.files.entry? path = s.files.entry? path
        ∨ ∃ invocation, readers.commandLine words = .run invocation
          ∧ (IsResult invocation s path ∨ IsBrokenOff invocation s path))
      ∧ s.CallsSince (fun call => ∃ invocation, readers.commandLine words = .run invocation
          ∧ FindsTemporaries invocation s call) t := by
  rw [serveWith]
  cases hwords : readers.commandLine words with
  | run invocation =>
      cases hrun : runOn (stages readers invocation) s with
      | mk outcome t =>
          have hwithin := within_stages readers findsTemporaries_of_dump
            (sourceWithin_of_fresh hremoval (hfresh invocation hwords))
          rw [Always, hrun] at hwithin
          obtain ⟨status, output, errors, hconclude⟩ := exists_conclude outcome t
          refine ⟨status, _, (run_run hrun).trans hconclude, fun path => ?_, ?_⟩
          · exact (hwithin.files.entries path).imp_right fun hpath =>
              ⟨invocation, rfl, hpath.symm⟩
          · exact hwithin.calls.imp fun call hcall => ⟨invocation, rfl, hcall⟩
  | shown text =>
      obtain ⟨_, output, errors, hoffer⟩ := exists_offer s .output (Text.Utf8.encode text)
      refine ⟨0, (s.offer .output (Text.Utf8.encode text)).2, rfl, ?_⟩
      rw [hoffer]
      exact ⟨fun _ => .inl rfl, .of_eq rfl⟩
  | refused text =>
      obtain ⟨_, output, errors, hoffer⟩ := exists_offer s .errors (Text.Utf8.encode text)
      refine ⟨usageStatus, (s.offer .errors (Text.Utf8.encode text)).2, rfl, ?_⟩
      rw [hoffer]
      exact ⟨fun _ => .inl rfl, .of_eq rfl⟩

/-! ## A machine with an empty directory for temporary files -/

theorem freshNames_smallMachine :
    FreshNames (plainRun (.asm "f" none)) (smallMachine []) := by
  have hsource : (smallMachine []).files.LeadsTo ["work"] "/tmp/objstr-f-0.c"
      ["tmp", "objstr-f-0.c"] := ⟨by decide, by decide⟩
  have hobject : (smallMachine []).files.LeadsTo ["work"] "/tmp/objstr-f-0"
      ["tmp", "objstr-f-0"] := ⟨by decide, by decide⟩
  rintro path ⟨text, htext, hpath⟩
  have htexts : text = "/tmp/objstr-f-0.c" ∨ text = "/tmp/objstr-f-0" := by
    revert htext
    rw [temporaries_of_routine? rfl]
    simp only [List.mem_cons, List.not_mem_nil, or_false]
    exact id
  rcases htexts with rfl | rfl
  · cases hpath.place.symm.trans hsource.place
    decide
  · cases hpath.place.symm.trans hobject.place
    decide

/-- A function of which an object is made and disassembled. -/
theorem serve_leaves_no_temporaries_object :
    (∀ name, (smallMachine []).faults.removing name = false)
    ∧ (∀ invocation, Readers.standard.commandLine ["asm", "f"] = .run invocation →
      FreshNames invocation (smallMachine []))
    ∧ ∃ t, (serve ["asm", "f"] : StateM Sandbox Nat).run (smallMachine []) = (0, t)
      ∧ (∀ path, t.files.entry? path = (smallMachine []).files.entry? path)
      ∧ ∃ call ∈ t.calls, call.args.getLast? = some "/tmp/objstr-f-0"
        ∧ call.files.entry? ["tmp", "objstr-f-0.c"] = none
        ∧ call.files.entry? ["tmp", "objstr-f-0"] = some (.file [0x90]) := by
  have hwords : Readers.standard.commandLine ["asm", "f"] = .run (plainRun (.asm "f" none)) := by
    decide +kernel
  have hremoval : ∀ name, (smallMachine []).faults.removing name = false := fun _ => rfl
  have hfresh : ∀ invocation, Readers.standard.commandLine ["asm", "f"] = .run invocation →
      FreshNames invocation (smallMachine []) := by
    intro invocation hinvocation
    cases hwords.symm.trans hinvocation
    exact freshNames_smallMachine
  obtain ⟨status, t, hrun, hfiles, calls, hcalls, hfinds⟩ :=
    serve_leaves_no_temporaries .standard ["asm", "f"] (smallMachine []) hremoval hfresh
  have hended : ((serve ["asm", "f"] : StateM Sandbox Nat).run (smallMachine [])).1 = 0
      ∧ ∃ call ∈ ((serve ["asm", "f"] : StateM Sandbox Nat).run (smallMachine [])).2.calls,
        call.tool = .disassembler := by
    decide +kernel
  rw [serve, hrun] at hended
  obtain ⟨rfl, call, hcall, htool⟩ := hended
  refine ⟨hremoval, hfresh, t, hrun, fun path => ?_, call, hcall, ?_⟩
  · rcases hfiles path with heq | ⟨invocation, hinvocation, hresult | hbroken⟩
    · exact heq
    · obtain ⟨file, houtput, -⟩ := hresult
      cases hwords.symm.trans hinvocation
      cases houtput
    · obtain ⟨_, _, -, -, ⟨_, _, hfault⟩, -⟩ := hbroken
      cases hfault
  · have hnew : call ∈ calls := by
      rw [hcalls] at hcall
      exact hcall
    obtain ⟨invocation, hinvocation, hfound⟩ := hfinds call hnew
    cases hwords.symm.trans hinvocation
    have hobjectFound := hfound htool ⟨"f", none, .asm⟩ rfl
    exact ⟨hobjectFound.named, hobjectFound.sourceGone _ ⟨by decide, by decide⟩,
      hobjectFound.objectThere _ rfl _ ⟨by decide, by decide⟩⟩

/-- The same machine with no room for more than a few bytes of a file. -/
def narrowMachine : Sandbox :=
  { smallMachine [] with
    faults :=
      { writing := fun _ _ =>
          some (.breakingOff 4 (.other "No space left on device (os error 28)")) } }

/-- The result of a run may be put next to the temporary files, and then it stays there; so does a
source for which there is not enough room. -/
theorem result_or_broken_source_stays :
    (∃ invocation, Readers.standard.commandLine ["-o", "../tmp/q", "dump"] = .run invocation
      ∧ FreshNames invocation (smallMachine [])
      ∧ ((serve ["-o", "../tmp/q", "dump"] : StateM Sandbox Nat).run (smallMachine [])).1 = 0
      ∧ (((serve ["-o", "../tmp/q", "dump"] : StateM Sandbox Nat).run
        (smallMachine [])).2.files.filesIn ["tmp"]).map Prod.fst = ["q"])
    ∧ (∃ invocation, Readers.standard.commandLine ["asm", "f"] = .run invocation
      ∧ FreshNames invocation narrowMachine
      ∧ ((serve ["asm", "f"] : StateM Sandbox Nat).run narrowMachine).1 = 1
      ∧ (((serve ["asm", "f"] : StateM Sandbox Nat).run narrowMachine).2.files.filesIn
        ["tmp"]).map Prod.fst = ["objstr-f-0.c"])
    ∧ (smallMachine []).temporaryDirectory = "/tmp"
    ∧ (smallMachine []).files.filesIn ["tmp"] = [] := by
  refine ⟨⟨{ plainRun (.dump none) with output? := some "../tmp/q" }, by decide +kernel, ?_,
    by decide +kernel, by decide +kernel⟩,
    ⟨plainRun (.asm "f" none), by decide +kernel, freshNames_smallMachine, by decide +kernel,
      by decide +kernel⟩, rfl, rfl⟩
  rintro path ⟨text, htext, -⟩
  cases htext

end ByteEmbed.Session
