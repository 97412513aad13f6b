/-!
# ByteEmbed.Yaml.Problem — why a text is not one YAML document.
-/

namespace ByteEmbed.Yaml

/-- A cause for which a text is refused. -/
inductive Problem where
  /-- The text holds a character that is not allowed anywhere. -/
  | controlCharacter
  /-- A token starts with a character that starts none. -/
  | unexpectedCharacter (character : Char)
  /-- A mapping key is not followed by a colon. -/
  | missingColon
  /-- A block entry, key or value stands where none is allowed. -/
  | misplacedIndicator (character : Char)
  /-- A directive has no known name, or is not well-formed. -/
  | badDirective
  /-- An anchor or a reference has no name, or its name runs into another token. -/
  | badAnchor
  /-- A tag is not well-formed. -/
  | badTag
  /-- The header of a block scalar is not well-formed. -/
  | badBlockHeader
  /-- A tab stands where indentation is expected. -/
  | tabIndentation
  /-- A quoted scalar is not closed. -/
  | unclosedQuote
  /-- A quoted scalar holds an escape that is not known, or that names no character. -/
  | badEscape
  /-- A plain scalar in a flow collection is followed by a colon and another indicator. -/
  | unexpectedColon
  /-- A node is missing. -/
  | missingNode
  /-- A collection goes on with a token that does not belong to it. -/
  | unexpectedToken
  /-- A tag uses a handle that no directive declares. -/
  | undeclaredHandle (handle : String)
  /-- A reference names an anchor that is not known. -/
  | unknownAnchor (name : String)
  /-- A second document, or anything else, follows the first document. -/
  | trailingContent
deriving DecidableEq, Repr

namespace Problem

/-- The message shown for a refused text. -/
def message : Problem → String
  | controlCharacter => "control characters are not allowed"
  | unexpectedCharacter character => "unexpected character " ++ character.quote
  | missingColon => "could not find expected ':'"
  | misplacedIndicator character => character.quote ++ " is not allowed in this context"
  | badDirective => "invalid directive"
  | badAnchor => "invalid anchor"
  | badTag => "invalid tag"
  | badBlockHeader => "invalid block scalar header"
  | tabIndentation => "found a tab where indentation is expected"
  | unclosedQuote => "found unexpected end of a quoted scalar"
  | badEscape => "invalid escape"
  | unexpectedColon => "found unexpected ':'"
  | missingNode => "did not find expected node content"
  | unexpectedToken => "did not find expected token"
  | undeclaredHandle handle => "undeclared tag handle " ++ handle
  | unknownAnchor name => "unknown anchor " ++ name
  | trailingContent => "more than one document"

end Problem

end ByteEmbed.Yaml
