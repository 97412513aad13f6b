import ByteEmbed.Program.Sandbox
import ByteEmbed.Program.Session
import ByteEmbed.Proofs.Program.FileTree

/-!
# ByteEmbed.Proofs.Program.Steps — the steps of a run, and what can be wrong with each.

A run is told here apart from the program that carries it out.  `Fault` lists what can be wrong with
a step, all of it read off the readers and the machine as it is before the run; so there may be many
faults at once, and `FirstFault` says which of them counts.  `started`, `printed` and `shown` say
what a step that is taken has its tool do, and `announced` what the run says when the step has
succeeded.

A stream that refuses a text is no fault of a step.  What is said here of the order of faults is
meant for machines whose streams take what is written to them (`TakesAll`).
-/

namespace ByteEmbed

/-- A function of which a run makes an object: its name, the file of its body, and its language. -/
structure Routine where
  name : String
  file? : Option String
  language : Language

/-- The function that a mode compiles, if it does. -/
def Mode.routine? : Mode → Option Routine
  | .dump _ => none
  | .asm name file? => some ⟨name, file?, .asm⟩
  | .c name file? returns params => some ⟨name, file?, .c returns params⟩

/-- The streams of a machine take whatever is written to them. -/
def Sandbox.TakesAll (s : Sandbox) : Prop :=
  ∀ channel before bytes, s.faults.printing channel before bytes = none

namespace Session

/-! ## Steps -/

/-- A step of a run. -/
inductive Step where
  /-- The settings are loaded. -/
  | settings
  /-- The name of a function is checked. -/
  | name
  /-- The body of a function is read. -/
  | body
  /-- The temporary source of a function is written. -/
  | source
  /-- The compiler is run. -/
  | compiler
  /-- The disassembler is run. -/
  | disassembler
  /-- The symbols of the listing are collected. -/
  | listing
  /-- The result is written. -/
  | result
deriving DecidableEq, Repr

/-- The tool that a step runs. -/
def Step.tool? : Step → Option Tool
  | compiler => some .compiler
  | disassembler => some .disassembler
  | _ => none

/-- The steps that make an object of a function. -/
def compileSteps (mode : Mode) : List Step :=
  mode.routine?.elim [] fun _ => [.name, .body, .source, .compiler]

/-- The steps of a run, in the order in which they are taken. -/
def stepsOf (mode : Mode) : List Step :=
  .settings :: (compileSteps mode ++ [.disassembler, .listing, .result])

variable (readers : Readers) (invocation : Invocation) (s : Sandbox)

/-! ## Temporary files -/

/-- The temporary object of a function, as it is written. -/
def objectOf (routine : Routine) : String :=
  objectPath s.temporaryDirectory routine.name s.tag

/-- The temporary source of a function, as it is written. -/
def sourceOf (routine : Routine) : String := sourcePath (objectOf s routine)

/-- The temporary files of a run, as they are written: the source and the object of a function. -/
def temporaries : List String :=
  invocation.mode.routine?.elim [] fun routine => [sourceOf s routine, objectOf s routine]

/-- A path that a temporary file of a run has. -/
def IsTemporary (path : Path) : Prop :=
  ∃ text ∈ temporaries invocation s, s.files.LeadsTo s.workingDirectory text path

/-- Nothing stands under the names of the temporary files before the run. -/
def FreshNames : Prop :=
  ∀ path, IsTemporary invocation s path → s.files.entry? path = none

/-- The path of the file that a run is told to write its result to. -/
def IsResult (path : Path) : Prop :=
  ∃ file, invocation.output? = some file ∧ s.files.LeadsTo s.workingDirectory file path

/-! ## What a run works with -/

/-- What a reader of settings is given of a file, if that can be opened. -/
def opened? (file : String) : Option (Except HostError (List UInt8)) :=
  match s.read file with
  | .error (.opening _) => none
  | .error (.reading cause) => some (.error cause)
  | .ok bytes => some (.ok bytes)

/-- The settings of a run, if nothing is wrong with their file. -/
def settings? : Option Settings :=
  match invocation.config? with
  | none => some (invocation.applyTo Settings.default)
  | some file => do
    let settings ← (readers.settings (← opened? s file)).toOption
    return invocation.applyTo settings

/-- The bytes of a body, from a file or from standard input. -/
def bodyBytes : Option String → Except HostError (List UInt8)
  | some file => (s.read file).mapError ReadError.cause
  | none => s.faults.input.elim (.ok s.input) .error

/-- The text of the temporary source, if there is one to be written. -/
def sourceText? : Option String := do
  let routine ← invocation.mode.routine?
  let snippet ← Snippet.ofName? routine.name routine.language
  let body ← Text.Utf8.decode? (← (bodyBytes s routine.file?).toOption)
  return snippet.sourceText body

/-- The files after a source has been written and compiled, and the source and the object have been
removed as far as they can be. -/
def filesBuilt (object source : String) : FileTree :=
  let written := (s.write (sourcePath object) (Text.Utf8.encode source)).2
  let compiled := { s with files := written }.filesAfter .compiler
    (compilerArgs (sourcePath object) object)
  let cleared := { s with files := compiled }.filesWithout (sourcePath object)
  { s with files := cleared }.filesWithout object

/-- The files of a machine once there is a listing. -/
def listedFiles : FileTree :=
  match invocation.mode.routine?, sourceText? invocation s with
  | some routine, some source => filesBuilt s (objectOf s routine) source
  | _, _ => s.files

/-- The symbols of what the disassembler writes, if they can be collected. -/
def symbols? : Option (List Symbol) := do
  let reply ← (s.outcome .disassembler).toOption
  (Listing.symbolsOf (Xoshiro.ofSeed (invocation.seed?.getD s.entropy))
    (Text.Utf8.decodeLossy reply.output)).toOption

/-- The declarations of these symbols. -/
def result? : Option String := do
  let settings ← settings? readers invocation s
  let symbols ← symbols? invocation s
  return settings.layout.declareAll symbols

/-! ## Faults -/

/-- What is wrong with a step on a machine, and the failure that it is reported as. -/
inductive Fault : Step → Failure → Prop
  | settingsNotOpened {file : String} {cause : HostError}
      (hconfig : invocation.config? = some file) (hread : s.read file = .error (.opening cause)) :
      Fault .settings (.cannotOpen file cause)
  | settingsRefused {file : String} {opened : Except HostError (List UInt8)} {causes : List String}
      (hconfig : invocation.config? = some file) (hread : opened? s file = some opened)
      (hsettings : readers.settings opened = .error causes) :
      Fault .settings (.invalidSettings file causes)
  | nameInvalid {routine : Routine} (hmode : invocation.mode.routine? = some routine)
      (hname : isIdentifier routine.name = false) : Fault .name (.invalidName routine.name)
  | bodyNotRead {routine : Routine} {cause : HostError}
      (hmode : invocation.mode.routine? = some routine)
      (hread : bodyBytes s routine.file? = .error cause) :
      Fault .body (bodyFailure routine.file? cause)
  | bodyNoText {routine : Routine} {bytes : List UInt8}
      (hmode : invocation.mode.routine? = some routine)
      (hread : bodyBytes s routine.file? = .ok bytes) (htext : Text.Utf8.decode? bytes = none) :
      Fault .body (bodyFailure routine.file? .invalidText)
  | sourceNotWritten {routine : Routine} {source : String} {cause : HostError}
      (hmode : invocation.mode.routine? = some routine)
      (hsource : sourceText? invocation s = some source)
      (hwrite : (s.write (sourceOf s routine) (Text.Utf8.encode source)).1 = .error cause) :
      Fault .source (.cannotCreate (sourceOf s routine) cause)
  | toolNotRun {step : Step} {tool : Tool} {cause : HostError} (htool : step.tool? = some tool)
      (houtcome : s.outcome tool = .error cause) : Fault step (.toolNotStarted tool cause)
  | toolFailed {step : Step} {tool : Tool} {reply : ToolReply} (htool : step.tool? = some tool)
      (houtcome : s.outcome tool = .ok reply) (hstatus : reply.status.succeeded = false) :
      Fault step (.toolFailed tool reply.status)
  | disassemblerSilent {reply : ToolReply} (houtcome : s.outcome .disassembler = .ok reply)
      (hstatus : reply.status.succeeded = true) (houtput : reply.output = []) :
      Fault .disassembler (.noOutput .disassembler)
  | listingMalformed {reply : ToolReply} {cause : MalformedBytes}
      (houtcome : s.outcome .disassembler = .ok reply)
      (hlisting : Listing.symbolsOf (Xoshiro.ofSeed (invocation.seed?.getD s.entropy))
        (Text.Utf8.decodeLossy reply.output) = .error cause) :
      Fault .listing (.malformedBytes cause)
  | resultNotWritten {file text : String} {cause : HostError}
      (houtput : invocation.output? = some file)
      (htext : result? readers invocation s = some text)
      (hwrite : ({ s with files := listedFiles invocation s }.write file
        (Text.Utf8.encode text)).1 = .error cause) :
      Fault .result (.cannotWrite file cause)

/-- Nothing is wrong with any of some steps. -/
def Clean (steps : List Step) : Prop :=
  ∀ step ∈ steps, ∀ failure, ¬ Fault readers invocation s step failure

/-- Among some steps, `step` is the first that something is wrong with; `earlier` come before it. -/
structure FirstFault (steps earlier : List Step) (step : Step) (failure : Failure) : Prop where
  order : ∃ later, steps = earlier ++ step :: later
  clean : Clean readers invocation s earlier
  fault : Fault readers invocation s step failure

/-! ## What a step does -/

/-- The tools that a step starts, if they are there. -/
def started (step : Step) : List Tool :=
  step.tool?.toList.filter fun tool => (s.reply? tool).isSome

/-- What a step's tool writes to standard output: only the compiler has the run's own. -/
def printed : Step → List UInt8
  | .compiler => (s.reply? .compiler).elim [] ToolReply.output
  | _ => []

/-- What a step's tool writes to standard error.  The disassembler's part is passed on as text, once
it has ended. -/
def shown : Step → List UInt8
  | .compiler => (s.reply? .compiler).elim [] ToolReply.errors
  | .disassembler =>
    (s.outcome .disassembler).toOption.elim [] fun reply =>
      Text.Utf8.encode (Text.Utf8.decodeLossy reply.errors)
  | _ => []

/-- What is written to standard error when a step has succeeded. -/
def announced : Step → String
  | .settings =>
    (settings? readers invocation s).elim "" fun settings =>
      stepLine 1 ("Disassemble (" ++ settings.scope.name ++ ")")
  | .disassembler => stepLine 2 "Parse Dump"
  | .listing =>
    (symbols? invocation s).elim "" fun symbols =>
      (if invocation.verbose then Summary.text symbols else "")
        ++ stepLine 3 s!"Render {symbols.length} Symbols"
  | .result => invocation.output?.elim "" fun file => "  > " ++ file ++ "\n"
  | _ => ""

/-- What is written to standard error in steps that succeed. -/
def told (steps : List Step) : List UInt8 :=
  steps.flatMap fun step => shown s step ++ Text.Utf8.encode (announced readers invocation s step)

end Session

end ByteEmbed
