import ByteEmbed.Program.FileTree
import ByteEmbed.Text.Utf8

/-!
# ByteEmbed.Program.Sandbox — a model of a machine on which a run can be followed.

The tools of a sandbox do as they are told: a tool may be missing, write anything to its streams and
end in any way, and the compiler may, however it ends, write the file that its last argument names.
Every start of a tool is recorded together with the files as they were at that moment.

What goes wrong on a machine for causes that are not in its files is data of the machine as well
(`Faults`): files that are not read, writings that are refused or break off half way, files that
stay, streams that take no more.  Where nothing is said, nothing goes wrong.
-/

namespace ByteEmbed

/-! ## What a machine is told to do -/

/-- What the compiler does when it is started. -/
structure CompilerBehaviour where
  reply : ToolReply
  /-- The bytes it writes to the file that its last argument names, if it does. -/
  object? : Option (List UInt8)
deriving DecidableEq, Repr

/-- How the writing of a file fails for a cause that is not in its path. -/
inductive WriteFault where
  /-- The file is not made, and one that is there stays as it is. -/
  | creating (cause : HostError)
  /-- The file is made, and its writing breaks off after some bytes. -/
  | breakingOff (count : Nat) (cause : HostError)
deriving DecidableEq, Repr

/-- What goes wrong on a machine for causes that are not in its files. -/
structure Faults where
  /-- Why a file is not read, by its name as it is written. -/
  reading : String → Option ReadError := fun _ => none
  /-- Why standard input is not read. -/
  input : Option HostError := none
  /-- How the writing of bytes to a file fails, by its name as it is written. -/
  writing : String → List UInt8 → Option WriteFault := fun _ _ => none
  /-- Whether a file cannot be removed, by its name as it is written. -/
  removing : String → Bool := fun _ => false
  /-- Why a tool that cannot be started is not. -/
  starting : Tool → HostError := fun _ => .notFound
  /-- Why it is not learnt of a tool that was started what came of it. -/
  waiting : Tool → Option HostError := fun _ => none
  /-- By what a stream was given before and what it is given now: how many of these bytes it takes
  before it refuses the others, and why. -/
  printing : Channel → List UInt8 → List UInt8 → Option (Nat × HostError) := fun _ _ _ => none

/-! ## States -/

/-- A start of a tool: its arguments, and the files and the standard input it found. -/
structure ToolCall where
  tool : Tool
  args : List String
  files : FileTree
  workingDirectory : Path
  input : List UInt8
deriving DecidableEq, Repr

/-- The state of a machine. -/
structure Sandbox where
  files : FileTree
  workingDirectory : Path
  /-- The directory for temporary files, as it is written. -/
  temporaryDirectory : String
  tag : String
  /-- What is left of standard input. -/
  input : List UInt8
  entropy : UInt64
  /-- What the compiler does, if it can be started. -/
  compiler? : Option CompilerBehaviour
  /-- What the disassembler does, if it can be started. -/
  disassembler? : Option ToolReply
  /-- What was written to standard output. -/
  output : List UInt8
  /-- What was written to standard error. -/
  errors : List UInt8
  calls : List ToolCall
  faults : Faults := {}
  /-- The words in which the machine says that a run is given up, and why. -/
  notice : String → String := fun reason => "thread 'main' panicked:\n" ++ reason ++ "\n"

namespace ToolCall

/-- The text of the file that an argument with an ending names. -/
def textOfArgument? (call : ToolCall) (ending : String) : Option String := do
  let name ← call.args.find? fun arg => ending.toList.isSuffixOf arg.toList
  match call.files.read call.workingDirectory name with
  | .ok bytes => return Text.Utf8.decodeLossy bytes
  | .error _ => none

/-- Whether the last argument leads to a file that the tool finds. -/
def findsLastArgument (call : ToolCall) : Bool :=
  call.args.getLast?.any (call.files.leadsSomewhere call.workingDirectory)

end ToolCall

namespace Sandbox

/-! ## Files -/

/-- The bytes of a file. -/
def read (sandbox : Sandbox) (name : String) : Except ReadError (List UInt8) :=
  match sandbox.faults.reading name with
  | some e => .error e
  | none => sandbox.files.read sandbox.workingDirectory name

/-- Writes a file as far as its path allows: what comes of it, and the files then. -/
def put (sandbox : Sandbox) (name : String) (bytes : List UInt8) (outcome : Except HostError Unit) :
    Except HostError Unit × FileTree :=
  match sandbox.files.write sandbox.workingDirectory name bytes with
  | .ok files => (outcome, files)
  | .error cause => (.error cause, sandbox.files)

/-- Writes a file: what comes of it, and the files then. -/
def write (sandbox : Sandbox) (name : String) (bytes : List UInt8) :
    Except HostError Unit × FileTree :=
  match sandbox.faults.writing name bytes with
  | none => sandbox.put name bytes (.ok ())
  | some (.creating cause) => (.error cause, sandbox.files)
  | some (.breakingOff count cause) => sandbox.put name (bytes.take count) (.error cause)

/-- The files after one was to be removed. -/
def filesWithout (sandbox : Sandbox) (name : String) : FileTree :=
  if sandbox.faults.removing name then sandbox.files
  else sandbox.files.remove sandbox.workingDirectory name

/-! ## Tools -/

/-- What a tool leaves behind, if it can be started. -/
def reply? (sandbox : Sandbox) : Tool → Option ToolReply
  | .compiler => sandbox.compiler?.map CompilerBehaviour.reply
  | .disassembler => sandbox.disassembler?

/-- What is learnt of a tool that is to be run. -/
def outcome (sandbox : Sandbox) (tool : Tool) : Except HostError ToolReply :=
  match sandbox.reply? tool, sandbox.faults.waiting tool with
  | none, _ => .error (sandbox.faults.starting tool)
  | some _, some cause => .error cause
  | some reply, none => .ok reply

/-- The bytes that a tool writes to the file its last argument names, if it does. -/
def object? (sandbox : Sandbox) : Tool → Option (List UInt8)
  | .compiler => sandbox.compiler?.bind CompilerBehaviour.object?
  | .disassembler => none

/-- The files after a tool has run. -/
def filesAfter (sandbox : Sandbox) (tool : Tool) (args : List String) : FileTree :=
  match sandbox.object? tool, args.getLast? with
  | some bytes, some target =>
    match sandbox.files.write sandbox.workingDirectory target bytes with
    | .ok files => files
    | .error _ => sandbox.files
  | _, _ => sandbox.files

/-- The start of a tool. -/
def call (sandbox : Sandbox) (tool : Tool) (args : List String) : ToolCall :=
  { tool, args, files := sandbox.files, workingDirectory := sandbox.workingDirectory
    input := sandbox.input }

/-- The state after a tool has run, with its start recorded. -/
def afterTool (sandbox : Sandbox) (tool : Tool) (args : List String) : Sandbox :=
  { sandbox with
    files := sandbox.filesAfter tool args
    calls := sandbox.calls ++ [sandbox.call tool args] }

/-! ## Streams -/

/-- Writes bytes to standard output. -/
def writeOutput (bytes : List UInt8) (sandbox : Sandbox) : Sandbox :=
  { sandbox with output := sandbox.output ++ bytes }

/-- Writes bytes to standard error. -/
def writeErrors (bytes : List UInt8) (sandbox : Sandbox) : Sandbox :=
  { sandbox with errors := sandbox.errors ++ bytes }

/-- Writes bytes to a stream. -/
def writeTo (sandbox : Sandbox) (bytes : List UInt8) : Channel → Sandbox
  | .output => sandbox.writeOutput bytes
  | .errors => sandbox.writeErrors bytes

/-- What was written to a stream. -/
def written (sandbox : Sandbox) : Channel → List UInt8
  | .output => sandbox.output
  | .errors => sandbox.errors

/-- Reads standard input to its end: its bytes, and the state then. -/
def drain (sandbox : Sandbox) : Except HostError (List UInt8) × Sandbox :=
  match sandbox.faults.input with
  | some cause => (.error cause, sandbox)
  | none => (.ok sandbox.input, { sandbox with input := [] })

/-- Gives bytes to a stream: whether it takes them all, and the state then. -/
def offer (sandbox : Sandbox) (channel : Channel) (bytes : List UInt8) :
    Except HostError Unit × Sandbox :=
  match sandbox.faults.printing channel (sandbox.written channel) bytes with
  | none => (.ok (), sandbox.writeTo bytes channel)
  | some (count, cause) => (.error cause, sandbox.writeTo (bytes.take count) channel)

/-- The state after a tool was run whose streams are kept, if it could be started. -/
def afterCaptured (sandbox : Sandbox) (tool : Tool) (args : List String) : Sandbox :=
  (sandbox.reply? tool).elim sandbox fun _ => sandbox.afterTool tool args

/-- The state after a tool was run on the machine's own streams, if it could be started. -/
def afterAttached (sandbox : Sandbox) (tool : Tool) (args : List String) : Sandbox :=
  (sandbox.reply? tool).elim sandbox fun reply =>
    ((sandbox.afterTool tool args).writeOutput reply.output).writeErrors reply.errors

/-! ## The machine -/

instance : Host (StateM Sandbox) where
  readFile name := return (← get).read name
  readInput := modifyGet drain
  writeFile name text := modifyGet fun sandbox =>
    let (outcome, files) := sandbox.write name (Text.Utf8.encode text)
    (outcome, { sandbox with files })
  removeFile name := modify fun sandbox => { sandbox with files := sandbox.filesWithout name }
  temporaryDirectory := return (← get).temporaryDirectory
  freshTag := return (← get).tag
  entropy := return (← get).entropy
  runAttached tool args := modifyGet fun sandbox =>
    ((sandbox.outcome tool).map ToolReply.status, sandbox.afterAttached tool args)
  runCaptured tool args := modifyGet fun sandbox =>
    (sandbox.outcome tool, sandbox.afterCaptured tool args)
  print channel text := modifyGet fun sandbox => sandbox.offer channel (Text.Utf8.encode text)
  giveUp reason := modify fun sandbox =>
    (sandbox.offer .errors (Text.Utf8.encode (sandbox.notice reason))).2

end Sandbox

end ByteEmbed
