import ByteEmbed.Program.Host
import ByteEmbed.Program.Invocation
import ByteEmbed.Text.Utf8

/-!
# ByteEmbed.Program.Readers — what reads command lines and settings files.

A run takes its orders from two readers: one for the words of a command line, one for settings
files.  Neither is part of what a run does.  So a run is told for any two (`Readers`), which decide
what is accepted, and in which words the rest is refused; the ones that the program comes with are
`Readers.standard`.
-/

namespace ByteEmbed

/-- What becomes of a command line. -/
inductive Answer where
  /-- It asks for a run. -/
  | run (invocation : Invocation)
  /-- It asks for a text to be shown. -/
  | shown (text : String)
  /-- It is refused, with a text that says why. -/
  | refused (text : String)
deriving DecidableEq, Repr

/-- The readers of command lines and of settings files. -/
structure Readers where
  /-- What becomes of the words of a command line, without the name of the program. -/
  commandLine : List String → Answer
  /-- The settings in a file that was opened, from its bytes or from the cause for which they could
  not be read; or else the messages of an error and of what is behind it. -/
  settings : Except HostError (List UInt8) → Except (List String) Settings

namespace Readers

/-- The name of the program. -/
def programName : String := "objstr"

/-- What is shown for a request for the version. -/
def versionText : String := programName ++ " 0.1.0\n"

/-- What is shown for a request for help. -/
def helpText : String :=
  versionText
    ++ "  Convert objdump listings into embeddable C byte-array declarations\n\n"
    ++ "Usage:\n  " ++ programName ++ " [OPTIONS] dump [PATH]\n"
    ++ "  " ++ programName ++ " [OPTIONS] asm <NAME> [FILE]\n"
    ++ "  " ++ programName ++ " [OPTIONS] c [--returns <TYPE>] [--args <LIST>] <NAME> [FILE]\n\n"
    ++ "Options:\n"
    ++ "  -c, --config <FILE>     YAML config file\n"
    ++ "  -a, --all               Disassemble all sections, not only executable ones\n"
    ++ "      --ctype <TYPE>      Element type of the generated arrays\n"
    ++ "      --tab-size <N>      Indentation of literal lines\n"
    ++ "      --max-width <N>     Width at which a literal is split\n"
    ++ "      --seed <N>          Seed for generated identifiers\n"
    ++ "  -o, --output <FILE>     Output file (stdout when omitted)\n"
    ++ "  -v, --verbose           Print a per-section summary\n"
    ++ "  -h, --help              Print help\n"
    ++ "  -V, --version           Print version\n"

/-- What becomes of the words of a command line. -/
def answer (words : List String) : Answer :=
  match Invocation.ofWords words with
  | .error e => .refused ("error: " ++ e.message ++ "\n\nFor more information, try '--help'.\n")
  | .ok .version => .shown versionText
  | .ok .help => .shown helpText
  | .ok (.run invocation) => .run invocation

/-- The settings in a file that was opened: it is one YAML document. -/
def settingsOf : Except HostError (List UInt8) → Except (List String) Settings
  | .error cause => throw [cause.message]
  | .ok bytes =>
    match Text.Utf8.decode? bytes with
    | none => throw [HostError.invalidText.message]
    | some text => (Settings.ofYaml text).mapError fun e => [e.message]

/-- The readers that the program comes with. -/
def standard : Readers := { commandLine := answer, settings := settingsOf }

end Readers

end ByteEmbed
