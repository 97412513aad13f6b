import ByteEmbed.Program.Session

/-!
# ByteEmbed.Main — the command line program.

The only module that touches the machine.  Files and streams are those of the process.  The program
starts no other processes, so that here a tool is always one that cannot be started.
-/

namespace ByteEmbed.Main

/-- The number of an error of the machine, and what the machine calls it. -/
def numberOf : IO.Error → Option (UInt32 × String)
  | .otherError number text | .resourceBusy number text | .resourceVanished number text
  | .unsupportedOperation number text | .hardwareFault number text
  | .unsatisfiedConstraints number text | .illegalOperation number text
  | .protocolError number text | .timeExpired number text | .interrupted _ number text
  | .noFileOrDirectory _ number text | .alreadyExists _ number text
  | .invalidArgument _ number text | .permissionDenied _ number text
  | .resourceExhausted _ number text | .inappropriateType _ number text
  | .noSuchThing _ number text => some (number, text)
  | .unexpectedEof | .userError _ => none

/-- The cause of an error of the machine. -/
def causeOf (e : IO.Error) : HostError :=
  match numberOf e with
  | some (2, _) => .notFound
  | some (20, _) => .notADirectory
  | some (21, _) => .isADirectory
  | some (36, _) => .nameTooLong
  | some (number, text) => .other s!"{text} (os error {number})"
  | none => .other e.toString

/-- The result of an action of the machine, or the cause of its failure. -/
def attempt {α : Type} (action : IO α) : BaseIO (Except HostError α) := do
  match ← action.toBaseIO with
  | .ok value => return .ok value
  | .error e => return .error (causeOf e)

/-- The bytes of a file, opened first and read then. -/
def readFile (name : String) : BaseIO (Except ReadError (List UInt8)) := do
  match ← attempt (IO.FS.Handle.mk name .read) with
  | .error cause => return .error (.opening cause)
  | .ok handle =>
    match ← attempt handle.readBinToEnd with
    | .error cause => return .error (.reading cause)
    | .ok bytes => return .ok bytes.data.toList

/-- The bytes of a stream up to its end. -/
partial def readStream (stream : IO.FS.Stream) (read : ByteArray) : IO ByteArray := do
  let more ← stream.read 65536
  if more.isEmpty then return read else readStream stream (read ++ more)

/-- Sixteen hexadecimal digits that cannot be foreseen. -/
def randomTag : BaseIO String := do
  let mut digits : List Char := []
  for _ in [0:16] do
    digits := Digit.lower (← IO.rand 0 15) :: digits
  return String.ofList digits

/-- Writes a text to a stream, to the last byte. -/
def printTo (channel : Channel) (text : String) : IO Unit := do
  let stream ← match channel with
    | .output => IO.getStdout
    | .errors => IO.getStderr
  stream.putStr text
  stream.flush

instance : Host BaseIO where
  readFile := readFile
  readInput := attempt do
    return (← readStream (← IO.getStdin) ByteArray.empty).data.toList
  writeFile name text := attempt (IO.FS.writeFile name text)
  removeFile name := do
    let _ ← attempt (IO.FS.removeFile name)
  temporaryDirectory := return (← IO.getEnv "TMPDIR").getD "/tmp"
  freshTag := randomTag
  entropy := return UInt64.ofNat (← IO.rand 0 (UInt64.size - 1))
  runAttached _ _ := return .error .notFound
  runCaptured _ _ := return .error .notFound
  print channel text := attempt (printTo channel text)
  giveUp reason := do
    let _ ← attempt (printTo .errors ("thread 'main' panicked:\n" ++ reason ++ "\n"))

end ByteEmbed.Main

/-- Carries out what the command line asks for. -/
def main (words : List String) : IO UInt32 := do
  let status : Nat ← ByteEmbed.Session.serve (m := BaseIO) words
  return UInt32.ofNat status
