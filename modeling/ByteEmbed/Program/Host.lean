/-!
# ByteEmbed.Program.Host — what a run needs of the machine it runs on.

A `Host` reads and writes files and streams and starts the two tools.  Everything a run does to the
world goes through it, so that the same run can be carried out on a machine or followed step by step
on a model of one.  Whatever a machine is asked for it may fail to do, but for the removal of a
file, of which no failure is told.
-/

namespace ByteEmbed

/-- Why the machine did not do what it was asked for. -/
inductive HostError where
  | notFound
  | notADirectory
  | isADirectory
  | nameTooLong
  /-- The bytes that were read are no text. -/
  | invalidText
  /-- Any other cause, with its message. -/
  | other (message : String)
deriving DecidableEq, Repr

/-- The message shown for a cause. -/
def HostError.message : HostError → String
  | notFound => "No such file or directory (os error 2)"
  | notADirectory => "Not a directory (os error 20)"
  | isADirectory => "Is a directory (os error 21)"
  | nameTooLong => "File name too long (os error 36)"
  | invalidText => "stream did not contain valid UTF-8"
  | other message => message

/-- Why a file was not read: it was not opened, or it was opened and gave no bytes. -/
inductive ReadError where
  | opening (cause : HostError)
  | reading (cause : HostError)
deriving DecidableEq, Repr

/-- The cause of a failed reading. -/
def ReadError.cause : ReadError → HostError
  | opening cause | reading cause => cause

/-! ## Streams -/

/-- A stream that a run writes to. -/
inductive Channel where
  | output
  | errors
deriving DecidableEq, Repr

/-- What a stream is called. -/
def Channel.name : Channel → String
  | output => "stdout"
  | errors => "stderr"

/-- What is said of a stream that did not take all of a text. -/
def Channel.refusal (channel : Channel) (cause : HostError) : String :=
  "failed printing to " ++ channel.name ++ ": " ++ cause.message

/-! ## Tools -/

/-- A program that a run starts. -/
inductive Tool where
  | compiler
  | disassembler
deriving DecidableEq, Repr

/-- The name under which a tool is looked for. -/
def Tool.name : Tool → String
  | compiler => "gcc"
  | disassembler => "objdump"

/-- How a tool ends. -/
inductive Termination where
  | exited (code : Nat)
  /-- It is ended by a signal, and its memory may be written out. -/
  | killed (signal : Nat) (coreDumped : Bool)
deriving DecidableEq, Repr

namespace Termination

/-- Whether a tool has done what it was started for. -/
def succeeded : Termination → Bool
  | exited code => code == 0
  | killed _ _ => false

/-- The names of the signals, from the first on. -/
def signalNames : List String :=
  [ "SIGHUP", "SIGINT", "SIGQUIT", "SIGILL", "SIGTRAP", "SIGABRT", "SIGBUS", "SIGFPE", "SIGKILL",
    "SIGUSR1", "SIGSEGV", "SIGUSR2", "SIGPIPE", "SIGALRM", "SIGTERM", "SIGSTKFLT", "SIGCHLD",
    "SIGCONT", "SIGSTOP", "SIGTSTP", "SIGTTIN", "SIGTTOU", "SIGURG", "SIGXCPU", "SIGXFSZ",
    "SIGVTALRM", "SIGPROF", "SIGWINCH", "SIGIO", "SIGPWR", "SIGSYS" ]

/-- The name of a signal in brackets, if it has one. -/
def signalNote : Nat → String
  | 0 => ""
  | number + 1 => (signalNames[number]?).elim "" fun name => " (" ++ name ++ ")"

/-- The text shown for the end of a tool. -/
def text : Termination → String
  | exited code => "exit status: " ++ toString code
  | killed signal coreDumped =>
    "signal: " ++ toString signal ++ signalNote signal
      ++ (if coreDumped then " (core dumped)" else "")

end Termination

/-- What a tool leaves behind: what it wrote to its two streams, and how it ended. -/
structure ToolReply where
  output : List UInt8
  errors : List UInt8
  status : Termination
deriving DecidableEq, Repr

/-! ## Machines -/

/-- A machine that runs can be carried out on. -/
class Host (m : Type → Type) where
  /-- The bytes of a file. -/
  readFile : String → m (Except ReadError (List UInt8))
  /-- All of standard input. -/
  readInput : m (Except HostError (List UInt8))
  /-- Makes a file of a text, in place of one that is there.  Where that fails the file may have
  been made already, with some of the text. -/
  writeFile : String → String → m (Except HostError Unit)
  /-- Removes a file, if it is there and can be removed. -/
  removeFile : String → m Unit
  /-- The directory for temporary files. -/
  temporaryDirectory : m String
  /-- A word that no temporary file has in its name. -/
  freshTag : m String
  /-- A word that cannot be foreseen. -/
  entropy : m UInt64
  /-- Runs a tool on the run's own streams, and says how it ended. -/
  runAttached : Tool → List String → m (Except HostError Termination)
  /-- Runs a tool on the run's standard input, and keeps what it writes. -/
  runCaptured : Tool → List String → m (Except HostError ToolReply)
  /-- Writes a text to a stream.  Where that fails a part of the text may have been written. -/
  print : Channel → String → m (Except HostError Unit)
  /-- Says on standard error, in the machine's own words, why a run is given up. -/
  giveUp : String → m Unit

end ByteEmbed
