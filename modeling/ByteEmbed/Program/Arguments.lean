/-!
# ByteEmbed.Program.Arguments — reading the words of a command line.

A `Grammar` lists the options of a command, how many plain arguments it takes, and the commands it
can hand over to.  Words are read from left to right.  An option's value is checked only when the
next option comes or the words end, so a request for help or for the version is met by the errors of
the options before it and by none after it.  A word that starts with a hyphen is always an option,
unless it is a hyphen alone or follows `--`; in particular it is never the value of the option
before it.
-/

namespace ByteEmbed

/-- Why the words of a command line are refused. -/
inductive UsageError where
  /-- A word is no option, no command, and no argument that was asked for. -/
  | unexpected (word : String)
  /-- An option comes without its value. -/
  | missingValue (option : String)
  /-- An option cannot have this value. -/
  | invalidValue (option : String) (value : String)
  /-- An option takes no value and has one attached. -/
  | unneededValue (option : String)
  /-- An option comes twice. -/
  | repeated (option : String)
  /-- An argument is missing. -/
  | missingArgument (name : String)
  /-- No command is given. -/
  | missingCommand
deriving DecidableEq, Repr

/-- The message shown for refused words. -/
def UsageError.message : UsageError → String
  | unexpected word => "unexpected argument '" ++ word ++ "' found"
  | missingValue option => "a value is required for '--" ++ option ++ "' but none was supplied"
  | invalidValue option value => "invalid value '" ++ value ++ "' for '--" ++ option ++ "'"
  | unneededValue option => "unexpected value for '--" ++ option ++ "' found"
  | repeated option => "the argument '--" ++ option ++ "' cannot be used multiple times"
  | missingArgument name => "the argument <" ++ name ++ "> was not provided"
  | missingCommand => "a command is required"

/-- What an option does. -/
inductive OptionKind where
  /-- It takes a value, which must satisfy a condition. -/
  | value (accepts : String → Bool)
  /-- It is on when it is given. -/
  | flag
  /-- It ends the reading: what it asks for is shown instead of a run. -/
  | display

/-- An option: its long name, its one-letter name if it has one, and what it does. -/
structure OptionSpec where
  long : String
  short : Option Char
  kind : OptionKind

/-- What the words of a command may be. -/
structure Grammar where
  options : List OptionSpec
  /-- For each plain argument in turn, the condition it must satisfy. -/
  arguments : List (String → Bool)
  /-- The commands that the rest of the words can be handed to. -/
  commands : List String

/-- The words of a command as far as they were read. -/
structure Arguments where
  values : List (String × String)
  flags : List String
  plain : List String
  /-- The option read last, and its value, as long as they have not been checked. -/
  pending : Option (OptionSpec × Option String)

/-- How the reading of words ends. -/
inductive Reading where
  /-- An option asks for something to be shown. -/
  | display (option : String)
  /-- The words are read, up to a command and the words after it if there is one. -/
  | done (arguments : Arguments) (command? : Option (String × List String))

namespace Arguments

/-- Nothing read. -/
def empty : Arguments := { values := [], flags := [], plain := [], pending := none }

/-- The value of an option. -/
def value? (arguments : Arguments) (option : String) : Option String :=
  arguments.values.lookup option

/-- Whether a flag is on. -/
def isOn (arguments : Arguments) (flag : String) : Bool := arguments.flags.contains flag

/-- Checks the option read last. -/
def settle (arguments : Arguments) : Except UsageError Arguments :=
  match arguments.pending with
  | none => return arguments
  | some (option, none) => throw (.missingValue option.long)
  | some (option, some value) =>
    let accepted := match option.kind with
      | .value accepts => accepts value
      | _ => true
    if (arguments.value? option.long).isSome then throw (.repeated option.long)
    else if accepted then
      return { arguments with values := (option.long, value) :: arguments.values, pending := none }
    else throw (.invalidValue option.long value)

/-- Takes in an option without an attached value.  The answer is none if it asks for something to be
shown. -/
def addOption (arguments : Arguments) (option : OptionSpec) :
    Except UsageError (Option Arguments) := do
  let arguments ← arguments.settle
  match option.kind with
  | .display => return none
  | .value _ => return some { arguments with pending := some (option, none) }
  | .flag =>
    if arguments.isOn option.long then throw (.repeated option.long)
    else return some { arguments with flags := option.long :: arguments.flags }

/-- Takes in an option with its value attached. -/
def addAttached (arguments : Arguments) (option : OptionSpec) (value : String) :
    Except UsageError Arguments := do
  match option.kind with
  | .value _ =>
    let arguments ← arguments.settle
    { arguments with pending := some (option, some value) }.settle
  | _ => throw (.unneededValue option.long)

/-! ## Words that start with a hyphen -/

/-- Takes in a long option, from the text after its two hyphens. -/
def addLong (grammar : Grammar) (arguments : Arguments) (text : List Char) :
    Except UsageError (Reading ⊕ Arguments) := do
  let name := String.ofList (text.takeWhile (· != '='))
  let some option := grammar.options.find? (·.long == name)
    | throw (.unexpected ("--" ++ String.ofList text))
  match text.dropWhile (· != '=') with
  | _ :: value => return .inr (← arguments.addAttached option (String.ofList value))
  | [] =>
    match ← arguments.addOption option with
    | some arguments => return .inr arguments
    | none => return .inl (.display option.long)

/-- Takes in one-letter options that share a hyphen.  What follows one that takes a value is its
value, with or without an equals sign between them. -/
def addShort (grammar : Grammar) (arguments : Arguments) :
    List Char → Except UsageError (Reading ⊕ Arguments)
  | [] => return .inr arguments
  | letter :: text => do
    let some option := grammar.options.find? (·.short == some letter)
      | throw (.unexpected ("-" ++ letter.toString))
    match option.kind, text with
    | .value _, '=' :: value => return .inr (← arguments.addAttached option (String.ofList value))
    | .value _, _ :: _ => return .inr (← arguments.addAttached option (String.ofList text))
    | _, _ =>
      match ← arguments.addOption option with
      | some arguments => addShort grammar arguments text
      | none => return .inl (.display option.long)

/-! ## Plain words -/

/-- Takes in a plain argument, if another one is asked for. -/
def addPlain (grammar : Grammar) (arguments : Arguments) (word : String) :
    Except UsageError Arguments := do
  let arguments ← arguments.settle
  match grammar.arguments[arguments.plain.length]? with
  | some accepts =>
    if accepts word then return { arguments with plain := arguments.plain ++ [word] }
    else throw (.unexpected word)
  | none => throw (.unexpected word)

/-- Takes in words that are all plain. -/
def addAllPlain (grammar : Grammar) (arguments : Arguments) (words : List String) :
    Except UsageError Arguments :=
  words.foldlM (addPlain grammar) arguments

/-! ## All words -/

/-- Reads words, with the option read last perhaps still to be given its value. -/
def readFrom (grammar : Grammar) (arguments : Arguments) :
    List String → Except UsageError Reading
  | [] => return .done arguments none
  | word :: words => do
    let awaited := match arguments.pending with
      | some (option, none) => some option
      | _ => none
    if awaited.isNone && grammar.commands.contains word then
      return .done arguments (some (word, words))
    match word.toList with
    | ['-', '-'] => return .done (← addAllPlain grammar arguments words) none
    | '-' :: '-' :: text =>
      match ← addLong grammar arguments text with
      | .inl ended => return ended
      | .inr arguments => readFrom grammar arguments words
    | '-' :: letter :: text =>
      match ← addShort grammar arguments (letter :: text) with
      | .inl ended => return ended
      | .inr arguments => readFrom grammar arguments words
    | _ =>
      match awaited with
      | some option =>
        readFrom grammar { arguments with pending := some (option, some word) } words
      | none => readFrom grammar (← addPlain grammar arguments word) words

/-- Reads the words of a command. -/
def read (grammar : Grammar) (words : List String) : Except UsageError Reading :=
  readFrom grammar empty words

end Arguments

end ByteEmbed
