import ByteEmbed.Literal.Spelling

/-!
# ByteEmbed.Literal.Basic — bytes as a list of literal segments.

A segment is the body of one C string literal; segments are meant to be wrapped in quotes and
written next to each other.  `ofBytes` appends one spelling after another to an open segment, with a
marker wherever a spelling would swallow the one after it, and closes the segment as soon as its
text, that marker included, is wider than the cap.  The marker owed at a cut is dropped: the cut
itself separates.  Since the cap is tested after a spelling is written, a segment may pass it by one
spelling, and a cap of zero gives one segment to a byte.
-/

namespace ByteEmbed

/-- The bodies of adjacent string literals, in order. -/
structure Literal where
  segments : List String
deriving DecidableEq, Repr

namespace Literal

/-- The width past which a segment is closed, unless another one is asked for. -/
def defaultWidth : Nat := 65

/-- Whether the spelling of `byte` swallows that of the byte that follows it, if any. -/
def needsMarker (byte : UInt8) (following : List UInt8) : Bool :=
  following.head?.any fun next => (Spelling.ofByte byte).swallows (Spelling.ofByte next)

/-- The segments of the bytes to come, when `written` stands in the open segment. -/
def segmentsFrom (maxWidth : Nat) (written : String) : List UInt8 → List String
  | [] => if written.isEmpty then [] else [written]
  | byte :: following =>
    let spelled := written ++ (Spelling.ofByte byte).text
    let separated := if needsMarker byte following then spelled ++ Spelling.marker else spelled
    if maxWidth < separated.utf8ByteSize then spelled :: segmentsFrom maxWidth "" following
    else segmentsFrom maxWidth separated following

/-- Spells `bytes` in segments that are closed once they are wider than `maxWidth`. -/
def ofBytes (bytes : List UInt8) (maxWidth : Nat) : Literal :=
  ⟨segmentsFrom maxWidth "" bytes⟩

/-- How many segments there are. -/
def size (literal : Literal) : Nat := literal.segments.length

/-- Whether there is no segment, as for no bytes. -/
def isEmpty (literal : Literal) : Bool := literal.segments.isEmpty

/-- The segments joined with nothing between them. -/
def joined (literal : Literal) : String := String.join literal.segments

end Literal

end ByteEmbed
