/-!
# ByteEmbed.Yaml.Token — the tokens of a YAML text.

Indentation and the colons after keys have become tokens of their own: a block collection is
bracketed by a start token and `blockEnd`, and every key and value is announced.
-/

namespace ByteEmbed.Yaml

/-- How a scalar is written. -/
inductive Style where
  | plain
  | quoted
  /-- After `|`: line ends are kept. -/
  | literal
  /-- After `>`: line ends are folded. -/
  | folded
deriving DecidableEq, Repr

/-- A token.  A tag is a declared handle and the bytes after it. -/
inductive Token where
  | versionDirective (major minor : Nat)
  | tagDirective (handle : String) (replacement : List UInt8)
  | documentStart
  | documentEnd
  | blockSequenceStart
  | blockMappingStart
  | blockEnd
  | flowSequenceStart
  | flowSequenceEnd
  | flowMappingStart
  | flowMappingEnd
  | blockEntry
  | flowEntry
  | key
  | value
  | reference (name : String)
  | anchor (name : String)
  | tag (handle : String) (suffix : List UInt8)
  | scalar (style : Style) (text : String)
deriving DecidableEq, Repr

end ByteEmbed.Yaml
