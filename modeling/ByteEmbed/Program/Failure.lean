import ByteEmbed.Program.Console
import ByteEmbed.Program.Host
import ByteEmbed.Symbol
import ByteEmbed.Snippet

/-!
# ByteEmbed.Program.Failure — why a run ends without a result.
-/

namespace ByteEmbed

/-- Why a run ends without a result. -/
inductive Failure where
  | malformedBytes (cause : MalformedBytes)
  | invalidName (name : String)
  | toolNotStarted (tool : Tool) (cause : HostError)
  | toolFailed (tool : Tool) (status : Termination)
  | noOutput (tool : Tool)
  /-- The reader of settings refuses a file, with the messages of its error and of what is behind
  that. -/
  | invalidSettings (file : String) (causes : List String)
  | cannotOpen (file : String) (cause : HostError)
  | cannotReadInput (cause : HostError)
  | cannotCreate (file : String) (cause : HostError)
  | cannotWrite (file : String) (cause : HostError)
deriving DecidableEq, Repr

namespace Failure

/-- The message shown for a failure. -/
def message : Failure → String
  | malformedBytes cause => cause.message
  | invalidName name => Snippet.invalidNameMessage name
  | toolNotStarted tool _ => "Failed to run `" ++ tool.name ++ "`"
  | toolFailed tool status => "`" ++ tool.name ++ "` failed: " ++ status.text
  | noOutput tool => "No parsable output from `" ++ tool.name ++ "`"
  | invalidSettings file _ => "Invalid config file: " ++ file
  | cannotOpen file _ => "Failed to open file: " ++ file
  | cannotReadInput _ => "Failed to read input"
  | cannotCreate file _ => "Failed to create file: " ++ file
  | cannotWrite file _ => "Failed to write file: " ++ file

/-- The messages of the causes behind a failure, the nearest one first. -/
def causes : Failure → List String
  | toolNotStarted _ cause | cannotOpen _ cause | cannotReadInput cause | cannotCreate _ cause
  | cannotWrite _ cause => [cause.message]
  | invalidSettings _ causes => causes
  | malformedBytes _ | invalidName _ | toolFailed _ _ | noOutput _ => []

/-- What is written to standard error for a failure. -/
def report (failure : Failure) : String :=
  let shown (cause : String) : String := "     " ++ Console.blue "-->" ++ " " ++ cause ++ "\n"
  Console.alarm "error" ++ ": " ++ failure.message ++ "\n"
    ++ String.join (failure.causes.map shown)

end Failure

end ByteEmbed
