/-!
# ByteEmbed.Program.Console — styled text, and text set in columns.

A style is a pair of terminal control sequences around a text: one that sets it and one that takes
it back.
-/

namespace ByteEmbed.Console

/-- The control sequence that selects a graphic rendition. -/
def rendition (code : Nat) : String := s!"\x1b[{code}m"

/-- A text between the renditions that set a style and take it back. -/
def styled (set reset : Nat) (text : String) : String :=
  rendition set ++ text ++ rendition reset

/-- A text in bold. -/
def bold (text : String) : String := styled 1 22 text

/-- A text in yellow. -/
def yellow (text : String) : String := styled 33 39 text

/-- A text in blue. -/
def blue (text : String) : String := styled 34 39 text

/-- A text in cyan. -/
def cyan (text : String) : String := styled 36 39 text

/-- A text in red and bold; the colour is set first and taken back first. -/
def alarm (text : String) : String :=
  rendition 31 ++ rendition 1 ++ text ++ rendition 39 ++ rendition 22

/-- As many copies of `c` as `text` is short of `width` characters. -/
def fill (c : Char) (width : Nat) (text : String) : String :=
  String.ofList (List.replicate (width - text.length) c)

/-- A text at the left of a column. -/
def left (width : Nat) (text : String) : String := text ++ fill ' ' width text

/-- A text at the right of a column. -/
def right (width : Nat) (text : String) : String := fill ' ' width text ++ text

end ByteEmbed.Console
