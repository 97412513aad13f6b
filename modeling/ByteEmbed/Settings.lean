import ByteEmbed.Declaration
import ByteEmbed.Scope
import ByteEmbed.Size
import ByteEmbed.Yaml.Document
import ByteEmbed.Yaml.Tokens

/-!
# ByteEmbed.Settings — what can be configured, and its reading from YAML.

A settings file is one YAML document that is a mapping, or empty.  Keys other than the four known
ones are passed over, whatever their values; a known key may not come twice, and what it leaves out
keeps its default.
-/

namespace ByteEmbed

/-- What a run can be configured with. -/
structure Settings where
  /-- The element type of the generated arrays. -/
  ctype : String
  /-- The indentation of literal lines, in spaces. -/
  tabSize : Nat
  /-- The width past which a literal is closed. -/
  maxWidth : Nat
  scope : Scope
deriving DecidableEq, Repr

/-- Why a text is no settings file. -/
inductive SettingsError where
  /-- The text is not one YAML document. -/
  | yaml (problem : Yaml.Problem)
  /-- The document is not a mapping. -/
  | notAMapping
  /-- A key is not a scalar. -/
  | badKey
  /-- A key comes twice. -/
  | duplicateKey (key : String)
  /-- The value of a key is not one it can have. -/
  | badValue (key : String)
deriving DecidableEq, Repr

/-- The message shown for a text that is no settings file. -/
def SettingsError.message : SettingsError → String
  | yaml problem => problem.message
  | notAMapping => "invalid type: expected a mapping"
  | badKey => "invalid type: expected a key"
  | duplicateKey key => "duplicate field `" ++ key ++ "`"
  | badValue key => key ++ ": invalid value"

namespace Settings

/-- The settings where nothing is configured. -/
def default : Settings :=
  { ctype := "const char", tabSize := 4, maxWidth := Literal.defaultWidth, scope := .exec }

/-- The layout of declarations. -/
def layout (settings : Settings) : Layout :=
  { ctype := settings.ctype, tabSize := settings.tabSize, maxWidth := settings.maxWidth }

/-! ## Values -/

/-- The text of any scalar. -/
def text? : Yaml.Node → Option String
  | .scalar _ _ text => some text
  | _ => none

/-- A decimal number; one of several digits does not start with zero. -/
def decimal? (digits : List Char) : Option Nat :=
  match digits with
  | '0' :: _ :: _ => none
  | _ => Size.ofDigits? 10 digits

/-- A number as YAML writes it: an optional plus sign, then a decimal number, or digits after the
mark of another radix. -/
def number? (text : String) : Option Nat :=
  match Size.withoutPlus text.toList with
  | '0' :: 'x' :: digits => Size.ofDigits? 16 digits
  | '0' :: 'o' :: digits => Size.ofDigits? 8 digits
  | '0' :: 'b' :: digits => Size.ofDigits? 2 digits
  | digits => decimal? digits

/-- The tag that makes a literal scalar a number. -/
def intTag : String := "tag:yaml.org,2002:int"

/-- The number of a node: of a plain scalar, or of a literal one that is tagged as a number. -/
def size? : Yaml.Node → Option Nat
  | .scalar _ .plain text => number? text
  | .scalar (some tag) .literal text => if tag = intTag then number? text else none
  | _ => none

/-- The name that a local tag, one with an exclamation mark, gives to its node. -/
def localTag? (tag : String) : Option String :=
  match tag.toList with
  | ['!'] => some "!"
  | '!' :: name => some (String.ofList name)
  | _ => none

/-- Whether a scalar says nothing besides its tag: it is plain, and a word for nothing or empty. -/
def isNull (style : Yaml.Style) (text : String) : Bool :=
  style == .plain && ["", "null", "Null", "NULL", "~"].contains text

/-- The scope of a node: a word, or a local tag on a node that is null. -/
def scope? : Yaml.Node → Option Scope
  | .scalar tag style text =>
    match tag.bind localTag? with
    | some name => if isNull style text then Scope.ofName? name else none
    | none => Scope.ofName? text
  | _ => none

/-! ## Mappings -/

/-- The known keys that a mapping sets. -/
structure Entries where
  ctype : Option String := none
  tabSize : Option Nat := none
  maxWidth : Option Nat := none
  scope : Option Scope := none

/-- Sets what a key stands for, once. -/
def setOnce {α : Type} (key : String) (old : Option α) (new : Option α) :
    Except SettingsError (Option α) :=
  match old, new with
  | some _, _ => throw (.duplicateKey key)
  | none, some value => return some value
  | none, none => throw (.badValue key)

/-- Takes in one entry of a mapping. -/
def addEntry (entries : Entries) (entry : Yaml.Node × Yaml.Node) :
    Except SettingsError Entries := do
  let (keyNode, value) := entry
  let some key := text? keyNode | throw .badKey
  match key with
  | "ctype" => return { entries with ctype := ← setOnce key entries.ctype (text? value) }
  | "tab_size" => return { entries with tabSize := ← setOnce key entries.tabSize (size? value) }
  | "max_width" => return { entries with maxWidth := ← setOnce key entries.maxWidth (size? value) }
  | "scope" => return { entries with scope := ← setOnce key entries.scope (scope? value) }
  | _ => return entries

/-- The settings of the entries of a mapping. -/
def ofEntries (entries : List (Yaml.Node × Yaml.Node)) : Except SettingsError Settings := do
  let found ← entries.foldlM addEntry {}
  return { ctype := found.ctype.getD default.ctype
           tabSize := found.tabSize.getD default.tabSize
           maxWidth := found.maxWidth.getD default.maxWidth
           scope := found.scope.getD default.scope }

/-- The settings of a document; one that is empty sets nothing. -/
def ofDocument : Option Yaml.Document → Except SettingsError Settings
  | none => return default
  | some document =>
    match document.root with
    | .scalar _ .plain "" => return default
    | .mapping _ entries =>
      ofEntries (entries.map fun (key, value) => (document.resolve key, document.resolve value))
    | _ => throw .notAMapping

/-- The document of a text. -/
def documentOf (text : String) : Except Yaml.Problem (Option Yaml.Document) := do
  Yaml.Document.ofTokens? (← Yaml.tokens text)

/-- The settings that a text configures. -/
def ofYaml (text : String) : Except SettingsError Settings :=
  match documentOf text with
  | .ok document => ofDocument document
  | .error problem => throw (.yaml problem)

end Settings

end ByteEmbed
