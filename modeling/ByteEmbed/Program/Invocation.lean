import ByteEmbed.Program.Arguments
import ByteEmbed.Settings

/-!
# ByteEmbed.Program.Invocation — what a command line asks for.

The options come before the command: `dump` disassembles an object, `asm` and `c` first compile a
function.  A command line asks for a run, for the version or for help, or it is refused.
-/

namespace ByteEmbed

/-- What is to be disassembled. -/
inductive Mode where
  /-- An object file, the disassembler's default one if none is named. -/
  | dump (path? : Option String)
  /-- A function of assembly, read from a file or from standard input. -/
  | asm (name : String) (file? : Option String)
  /-- A function of C, with its result type and its parameter list. -/
  | c (name : String) (file? : Option String) (returns : String) (params : String)
deriving DecidableEq, Repr

/-- What a run is asked for. -/
structure Invocation where
  mode : Mode
  /-- The settings file. -/
  config? : Option String
  /-- Whether all sections are disassembled, whatever the settings say. -/
  all : Bool
  ctype? : Option String
  tabSize? : Option Nat
  maxWidth? : Option Nat
  /-- The seed of generated names. -/
  seed? : Option UInt64
  /-- The file to write to, standard output if there is none. -/
  output? : Option String
  /-- Whether a summary is shown. -/
  verbose : Bool
deriving DecidableEq, Repr

/-- What a command line asks for. -/
inductive Request where
  | run (invocation : Invocation)
  | version
  | help
deriving DecidableEq, Repr

namespace Invocation

/-! ## Grammars -/

/-- An option that takes any text. -/
def textOption (long : String) (short : Option Char) : OptionSpec :=
  ⟨long, short, .value fun _ => true⟩

/-- An option that takes a number. -/
def numberOption (long : String) : OptionSpec :=
  ⟨long, none, .value fun word => (Size.ofWord? word).isSome⟩

/-- The request for help, which every command has. -/
def helpOption : OptionSpec := ⟨"help", some 'h', .display⟩

/-- The options before the command, and the commands. -/
def topGrammar : Grammar where
  options :=
    [ textOption "config" (some 'c'), ⟨"all", some 'a', .flag⟩, textOption "ctype" none,
      numberOption "tab-size", numberOption "max-width", numberOption "seed",
      textOption "output" (some 'o'), ⟨"verbose", some 'v', .flag⟩, helpOption,
      ⟨"version", some 'V', .display⟩ ]
  arguments := []
  commands := ["dump", "asm", "c", "help"]

/-- The words after `dump`: a path, which is not empty. -/
def dumpGrammar : Grammar where
  options := [helpOption]
  arguments := [fun path => !path.isEmpty]
  commands := []

/-- The words after `asm`: a name and a file. -/
def asmGrammar : Grammar where
  options := [helpOption]
  arguments := [fun _ => true, fun _ => true]
  commands := []

/-- The words after `c`: a name and a file, and the function's type. -/
def cGrammar : Grammar where
  options := [textOption "returns" none, textOption "args" none, helpOption]
  arguments := [fun _ => true, fun _ => true]
  commands := []

/-! ## Commands -/

/-- The name and the file that `asm` and `c` take. -/
def nameAndFile (arguments : Arguments) : Except UsageError (String × Option String) :=
  match arguments.plain with
  | name :: rest => return (name, rest.head?)
  | [] => throw (.missingArgument "NAME")

/-- The mode of a command's arguments, which are complete. -/
def modeOf (command : String) (arguments : Arguments) : Except UsageError Mode := do
  match command with
  | "dump" => return .dump arguments.plain.head?
  | "asm" =>
    let (name, file?) ← nameAndFile arguments
    return .asm name file?
  | _ =>
    let (name, file?) ← nameAndFile arguments
    return .c name file? ((arguments.value? "returns").getD "void")
      ((arguments.value? "args").getD "()")

/-- The words that a command accepts. -/
def grammarOf : String → Grammar
  | "dump" => dumpGrammar
  | "asm" => asmGrammar
  | _ => cGrammar

/-- Reads the words after a command; none is a request for help. -/
def readMode (command : String) (words : List String) : Except UsageError (Option Mode) := do
  match ← Arguments.read (grammarOf command) words with
  | .display _ => return none
  | .done arguments _ => return some (← modeOf command (← arguments.settle))

/-- The run of a mode, with the options before it. -/
def ofArguments (arguments : Arguments) (mode : Mode) : Invocation :=
  let number? (option : String) : Option Nat := (arguments.value? option).bind Size.ofWord?
  { mode
    config? := arguments.value? "config"
    all := arguments.isOn "all"
    ctype? := arguments.value? "ctype"
    tabSize? := number? "tab-size"
    maxWidth? := number? "max-width"
    seed? := (number? "seed").map UInt64.ofNat
    output? := arguments.value? "output"
    verbose := arguments.isOn "verbose" }

/-- Answers a request for help on commands: at most one may be named. -/
def readHelp : List String → Except UsageError Request
  | [] => return .help
  | [command] => if topGrammar.commands.contains command then return .help
    else throw (.unexpected command)
  | _ :: word :: _ => throw (.unexpected word)

/-- Reads a command line, without the name of the program. -/
def ofWords (words : List String) : Except UsageError Request := do
  match ← Arguments.read topGrammar words with
  | .display "version" => return .version
  | .display _ => return .help
  | .done _ (some ("help", words)) => readHelp words
  | .done arguments (some (command, words)) =>
    match ← readMode command words with
    | none => return .help
    | some mode => return .run (ofArguments (← arguments.settle) mode)
  | .done arguments none =>
    let _ ← arguments.settle
    throw .missingCommand

/-! ## Settings -/

/-- The settings of a run: the options, where they are given, win over the settings file. -/
def applyTo (invocation : Invocation) (settings : Settings) : Settings where
  scope := if invocation.all then .all else settings.scope
  ctype := invocation.ctype?.getD settings.ctype
  tabSize := invocation.tabSize?.getD settings.tabSize
  maxWidth := invocation.maxWidth?.getD settings.maxWidth

end Invocation

end ByteEmbed
