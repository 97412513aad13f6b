/-!
# ByteEmbed.Scope — which sections are disassembled.
-/

namespace ByteEmbed

/-- Which sections are disassembled. -/
inductive Scope where
  /-- Executable sections only. -/
  | exec
  /-- Every section. -/
  | all
deriving DecidableEq, Repr

namespace Scope

/-- The word for a scope. -/
def name : Scope → String
  | exec => "exec"
  | all => "all"

/-- The scope a word stands for. -/
def ofName? (word : String) : Option Scope :=
  if word = exec.name then some exec
  else if word = all.name then some all
  else none

/-- The message shown for a word that stands for no scope. -/
def unknownMessage : String := "Matching variant not found"

/-- The disassembler's option for a scope. -/
def flag : Scope → String
  | exec => "-d"
  | all => "-D"

/-- The disassembler's arguments for a scope and the object to read, its default one if none. -/
def disassemblerArgs (scope : Scope) (path? : Option String) : List String :=
  ["--no-addresses", "--disassembler-color=off", "-z", scope.flag] ++ path?.toList

end Scope

end ByteEmbed
