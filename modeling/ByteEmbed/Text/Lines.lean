/-!
# ByteEmbed.Text.Lines — the lines of a text.

A line ends at a line feed, and a carriage return just before that line feed belongs to the line
end.  A last line without a line feed counts as well, and keeps a carriage return at its end; after
a final line feed no empty line follows.
-/

namespace ByteEmbed.Text

/-- The lines of the characters to come, when `line` has been read since the last line end. -/
def linesFrom (line : String) : List Char → List String
  | [] => if line.isEmpty then [] else [line]
  | '\n' :: text => line :: linesFrom "" text
  | '\r' :: '\n' :: text => line :: linesFrom "" text
  | c :: text => linesFrom (line.push c) text

/-- The lines of a text, without their ends. -/
def lines (text : String) : List String :=
  linesFrom "" text.toList

end ByteEmbed.Text
