import ByteEmbed.Naming.Identifier

/-!
# ByteEmbed.Snippet — the source of a function to be compiled and disassembled.

A function is given by a name and a body.  A body of assembly becomes the string of an inline
assembly statement: its quotes get a backslash, and every line becomes a literal of its own.
-/

namespace ByteEmbed

/-- What the body of a function is written in. -/
inductive Language where
  /-- Assembly, as an inline statement of a function without parameters or result. -/
  | asm
  /-- C, with the function's result type and its parameter list, parentheses included. -/
  | c (returns : String) (params : String)
deriving DecidableEq, Repr

/-- A function to be compiled: its name is an identifier. -/
structure Snippet where
  name : String
  language : Language
  isIdentifier_name : isIdentifier name = true

namespace Snippet

/-- The function of a name and a language, if the name is an identifier. -/
def ofName? (name : String) (language : Language) : Option Snippet :=
  if h : isIdentifier name = true then some ⟨name, language, h⟩ else none

/-- The message shown for a name that is no identifier. -/
def invalidNameMessage (name : String) : String :=
  "`" ++ name ++ "` is not a valid identifier"

/-- A character of assembly as it stands in the string of the statement. -/
def asmChar (c : Char) : List Char :=
  if c = '"' then ['\\', '"']
  else if c = '\n' then ['"', '\n', '"']
  else [c]

/-- The source of the function with the given body. -/
def sourceText (snippet : Snippet) (body : String) : String :=
  match snippet.language with
  | .asm =>
    "void " ++ snippet.name ++ "()\x7b__asm__(\"" ++ String.ofList (body.toList.flatMap asmChar)
      ++ "\");\x7d"
  | .c returns params =>
    returns ++ " " ++ snippet.name ++ params ++ "\x7b" ++ body ++ "\x7d"

end Snippet

end ByteEmbed
