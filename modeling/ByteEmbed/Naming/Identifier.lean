/-!
# ByteEmbed.Naming.Identifier — the words that C accepts as names.
-/

namespace ByteEmbed

/-- Whether `c` may start an identifier: an ASCII letter or an underscore. -/
def isIdentifierHead (c : Char) : Bool := c.isAlpha || c == '_'

/-- Whether `c` may stand in an identifier after its first character. -/
def isIdentifierTail (c : Char) : Bool := c.isAlphanum || c == '_'

/-- Whether a text is an identifier: ASCII letters, digits and underscores, no digit first. -/
def isIdentifier (text : String) : Bool :=
  match text.toList with
  | [] => false
  | head :: tail => isIdentifierHead head && tail.all isIdentifierTail

/-- The name a symbol is declared under, and the label it comes from. -/
structure Name where
  display : String
  real : String
deriving DecidableEq, Repr

/-- Whether the declared name is another one than the label. -/
def Name.isRenamed (name : Name) : Bool := name.display != name.real

end ByteEmbed
