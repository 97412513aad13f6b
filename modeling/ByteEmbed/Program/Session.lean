import ByteEmbed.Program.Failure
import ByteEmbed.Program.Readers
import ByteEmbed.Listing.Collector
import ByteEmbed.Program.Summary
import ByteEmbed.Text.Utf8

/-!
# ByteEmbed.Program.Session — a run, stage by stage.

A run loads its settings; for `asm` and `c` it checks the name, reads the body, writes a temporary
source and compiles it; it disassembles the object, collects the symbols of the listing, and writes
their declarations to one place.  The first stage that fails ends the run.  The temporary source is
removed as soon as the compiler has ended, the object after the disassembler has, whatever they did.

A stream that does not take what is written to it ends a run as well, but on the spot: that is no
failure of a stage, nothing is reported as one, and the exit status is another.
-/

namespace ByteEmbed.Session

variable {m : Type → Type} [Monad m] [Host m]

/-- Why a run ends before its last stage has succeeded. -/
inductive Stop where
  /-- A stage has failed, which is still to be reported. -/
  | failed (failure : Failure)
  /-- A stream has refused a text, and the run was given up. -/
  | givenUp
deriving DecidableEq, Repr

/-- A stage of a run, which may stop it. -/
abbrev Stage (m : Type → Type) : Type → Type := ExceptT Stop m

/-- A stage that fails. -/
def fail {α : Type} (failure : Failure) : Stage m α := throw (.failed failure)

/-- Writes a text to a stream; if the stream refuses any of it the run is given up. -/
def tell (channel : Channel) (text : String) : Stage m Unit := do
  match ← ExceptT.lift (Host.print channel text) with
  | .ok () => return ()
  | .error cause =>
    ExceptT.lift (Host.giveUp (channel.refusal cause))
    throw .givenUp

/-! ## Progress -/

/-- The line that announces a step. -/
def stepLine (number : Nat) (text : String) : String :=
  Console.bold s!"{number}." ++ " " ++ text ++ "\n"

/-- Announces a step. -/
def announce (number : Nat) (text : String) : Stage m Unit :=
  tell .errors (stepLine number text)

/-! ## Settings -/

/-- Reads a settings file. -/
def readSettings (readers : Readers) (file : String) : Stage m Settings := do
  let opened ← match ← ExceptT.lift (Host.readFile file) with
    | .error (.opening cause) => fail (.cannotOpen file cause)
    | .error (.reading cause) => pure (.error cause)
    | .ok bytes => pure (.ok bytes)
  match readers.settings opened with
  | .error causes => fail (.invalidSettings file causes)
  | .ok settings => return settings

/-- The settings of a run. -/
def loadSettings (readers : Readers) (invocation : Invocation) : Stage m Settings := do
  match invocation.config? with
  | some file => return invocation.applyTo (← readSettings readers file)
  | none => return invocation.applyTo Settings.default

/-! ## Compiling -/

/-- The bytes of a body, from a file or from standard input. -/
def fetchBody : Option String → Stage m (Except HostError (List UInt8))
  | some file => do return (← ExceptT.lift (Host.readFile file)).mapError ReadError.cause
  | none => ExceptT.lift Host.readInput

/-- The failure that a body which is not read is reported as. -/
def bodyFailure : Option String → HostError → Failure
  | some file => .cannotOpen file
  | none => .cannotReadInput

/-- Reads the body of a function. -/
def readBody (file? : Option String) : Stage m String := do
  match ← fetchBody file? with
  | .error cause => fail (bodyFailure file? cause)
  | .ok bytes =>
    match Text.Utf8.decode? bytes with
    | some text => return text
    | none => fail (bodyFailure file? .invalidText)

/-- A name in a directory, as it is written: a slash is put between the two if the directory does
not end in one.  A directory of which nothing is written is the working directory. -/
def joinPath (directory name : String) : String :=
  match directory.toList.getLast? with
  | none | some '/' => directory ++ name
  | some _ => directory ++ "/" ++ name

/-- The temporary object of a function. -/
def objectPath (directory name tag : String) : String :=
  joinPath directory (Readers.programName ++ "-" ++ name ++ "-" ++ tag)

/-- The temporary source that goes with an object. -/
def sourcePath (object : String) : String := object ++ ".c"

/-- The arguments of the compiler for a source and the object to make of it. -/
def compilerArgs (source object : String) : List String :=
  ["-nostdlib", "-g0", "-O0", "-c", source, "-o", object]

/-- Makes an object of the source of a function.  A source file that was written is there only while
the compiler runs; one whose writing has failed is left as it is. -/
def buildObject (source : String) (object : String) : Stage m Unit := do
  let file := sourcePath object
  match ← ExceptT.lift (Host.writeFile file source) with
  | .error cause => fail (.cannotCreate file cause)
  | .ok () =>
    let result ← ExceptT.lift (Host.runAttached .compiler (compilerArgs file object))
    ExceptT.lift (Host.removeFile file)
    match result with
    | .error cause => fail (.toolNotStarted .compiler cause)
    | .ok status => if status.succeeded then return () else fail (.toolFailed .compiler status)

/-! ## Disassembling -/

/-- Passes on what a tool wrote to standard error, if it wrote anything. -/
def passOn (errors : String) : Stage m Unit :=
  if errors.isEmpty then return () else tell .errors errors

/-- The listing of an object. -/
def disassemble (scope : Scope) (path? : Option String) : Stage m String := do
  match ← ExceptT.lift (Host.runCaptured .disassembler (scope.disassemblerArgs path?)) with
  | .error cause => fail (.toolNotStarted .disassembler cause)
  | .ok reply =>
    passOn (Text.Utf8.decodeLossy reply.errors)
    if !reply.status.succeeded then fail (.toolFailed .disassembler reply.status)
    else if reply.output.isEmpty then fail (.noOutput .disassembler)
    else return Text.Utf8.decodeLossy reply.output

/-- Runs a stage, and removes a file when it has ended, however it has. -/
def removing {α : Type} (file : String) (stage : Stage m α) : Stage m α :=
  ExceptT.mk do
    let result ← stage.run
    Host.removeFile file
    return result

/-- The listing of a source, by way of an object that is there only until then. -/
def disassembleSource (scope : Scope) (source object : String) : Stage m String :=
  removing object do
    buildObject source object
    disassemble scope (some object)

/-- The listing of a function: its name is checked before its body is read. -/
def disassembleFunction (scope : Scope) (name : String) (file? : Option String)
    (language : Language) : Stage m String := do
  match Snippet.ofName? name language with
  | none => fail (.invalidName name)
  | some snippet =>
    let body ← readBody file?
    let directory ← ExceptT.lift (Host.temporaryDirectory (m := m))
    let tag ← ExceptT.lift (Host.freshTag (m := m))
    disassembleSource scope (snippet.sourceText body) (objectPath directory name tag)

/-- The listing that a mode asks for. -/
def listing (scope : Scope) : Mode → Stage m String
  | .dump path? => disassemble scope path?
  | .asm name file? => disassembleFunction scope name file? .asm
  | .c name file? returns params => disassembleFunction scope name file? (.c returns params)

/-! ## The result -/

/-- The symbols of a listing, with generated names from a seed, or from one that cannot be
foreseen. -/
def collect (seed? : Option UInt64) (text : String) : Stage m (List Symbol) := do
  let seed ← match seed? with
    | some seed => pure seed
    | none => ExceptT.lift (Host.entropy (m := m))
  match Listing.symbolsOf (Xoshiro.ofSeed seed) text with
  | .error cause => fail (.malformedBytes cause)
  | .ok symbols => return symbols

/-- Writes the result to its one place. -/
def deliver (output? : Option String) (text : String) : Stage m Unit := do
  match output? with
  | none => tell .output text
  | some file =>
    match ← ExceptT.lift (Host.writeFile file text) with
    | .error cause => fail (.cannotWrite file cause)
    | .ok () => tell .errors ("  > " ++ file ++ "\n")

/-- The result of a run: all its stages but the last. -/
def produce (readers : Readers) (invocation : Invocation) : Stage m String := do
  let settings ← loadSettings readers invocation
  announce 1 ("Disassemble (" ++ settings.scope.name ++ ")")
  let text ← listing settings.scope invocation.mode
  announce 2 "Parse Dump"
  let symbols ← collect invocation.seed? text
  if invocation.verbose then tell .errors (Summary.text symbols)
  announce 3 s!"Render {symbols.length} Symbols"
  return settings.layout.declareAll symbols

/-- All the stages of a run. -/
def stages (readers : Readers) (invocation : Invocation) : Stage m Unit := do
  deliver invocation.output? (← produce readers invocation)

/-! ## Runs -/

/-- The exit status of a run of which a stage has failed. -/
def failedStatus : Nat := 1

/-- The exit status of a run that was given up. -/
def givenUpStatus : Nat := 101

/-- The exit status of a command line that is refused. -/
def usageStatus : Nat := 2

/-- Reports a failure, if that is what came of a run; the result is the exit status. -/
def conclude : Except Stop Unit → m Nat
  | .ok () => return 0
  | .error .givenUp => return givenUpStatus
  | .error (.failed failure) => do
    match ← (tell .errors failure.report).run with
    | .ok () => return failedStatus
    | .error _ => return givenUpStatus

/-- Carries out a run; the result is its exit status. -/
def run (readers : Readers) (invocation : Invocation) : m Nat := do
  conclude (← (stages readers invocation).run)

/-- Carries out what a command line asks for, with any readers; the result is the exit status. -/
def serveWith (readers : Readers) (words : List String) : m Nat := do
  match readers.commandLine words with
  | .run invocation => run readers invocation
  | .shown text =>
    let _ ← Host.print .output text
    return 0
  | .refused text =>
    let _ ← Host.print .errors text
    return usageStatus

/-- Carries out what a command line asks for; the result is the exit status. -/
def serve (words : List String) : m Nat := serveWith .standard words

end ByteEmbed.Session
