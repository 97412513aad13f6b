import ByteEmbed.Text.Utf8
import ByteEmbed.Yaml.Node
import ByteEmbed.Yaml.Problem

/-!
# ByteEmbed.Yaml.Document — the one document that a list of tokens holds.

Wherever the grammar lets a node be left out, an empty plain scalar stands for it.  The productions
consume tokens; every one that calls itself again has consumed one before, so the number of tokens
bounds the depth of calls.
-/

namespace ByteEmbed.Yaml.Document

/-! ## The state of reading -/

/-- The tokens still to be read, what tag handles stand for, and the anchors declared so far. -/
structure Reading where
  tokens : List Token
  handles : List (String × List UInt8)
  anchors : Anchors

/-- A computation that reads tokens. -/
abbrev Reader : Type → Type := StateT Reading (Except Problem)

/-- The next token, left in place. -/
def peek : Reader (Option Token) := do return (← get).tokens.head?

/-- Drops the next token. -/
def skip : Reader Unit := modify fun r => { r with tokens := r.tokens.tail }

/-- Whether the next token is one of `choices`. -/
def isNext (choices : List Token) : Reader Bool := do
  return (← peek).any (choices.contains ·)

/-- Drops the next token if it is `token`, and tells whether it was. -/
def accept (token : Token) : Reader Bool := do
  if (← peek) == some token then
    skip
    return true
  else return false

/-! ## Properties of a node -/

/-- What precedes the content of a node. -/
structure Properties where
  tag : Option String
  anchor : Option String
  /-- Whether there was a tag or an anchor at all. -/
  isGiven : Bool

/-- What handles stand for where nothing else is declared. -/
def defaultHandles : List (String × List UInt8) :=
  [("!", Text.Utf8.encode "!"), ("!!", Text.Utf8.encode "tag:yaml.org,2002:")]

/-- The tag of a handle and a suffix.  Octets that are no text make no tag. -/
def resolveTag (handle : String) (suffix : List UInt8) : Reader (Option String) := do
  if handle.isEmpty then return Text.Utf8.decode? suffix
  match (← get).handles.lookup handle with
  | some replacement => return Text.Utf8.decode? (replacement ++ suffix)
  | none => throw (.undeclaredHandle handle)

/-- Reads the tag and the anchor before the content of a node, at most one of each, in either
order. -/
def properties : Reader Properties := do
  match ← peek with
  | some (.anchor name) =>
    skip
    match ← peek with
    | some (.tag handle suffix) =>
      skip
      return ⟨← resolveTag handle suffix, some name, true⟩
    | _ => return ⟨none, some name, true⟩
  | some (.tag handle suffix) =>
    skip
    match ← peek with
    | some (.anchor name) =>
      skip
      return ⟨← resolveTag handle suffix, some name, true⟩
    | _ => return ⟨← resolveTag handle suffix, none, true⟩
  | _ => return ⟨none, none, false⟩

/-- A reference to a name, which must be known by now. -/
def referenced (name : String) : Reader Node := do
  match (← get).anchors.number? name with
  | some number => return .reference number
  | none => throw (.unknownAnchor name)

/-- Reads a node's content, and gives it its anchor: the name is known at once, so that the content
may refer to itself. -/
def anchored (anchor : Option String) (content : Reader Node) : Reader Node := do
  match anchor with
  | none => content
  | some name =>
    let place := (← get).anchors.nodes.size
    modify fun r => { r with anchors := r.anchors.declare name }
    let node ← content
    modify fun r => { r with anchors := r.anchors.complete place node }
    return node

/-! ## Productions -/

/-- Where a node stands. -/
inductive Place where
  /-- Inside of a flow collection. -/
  | flow
  /-- In a block. -/
  | block
  /-- In a block, as a part of a mapping entry, where a sequence need not be indented. -/
  | entry
deriving DecidableEq, Repr

mutual

/-- A node. -/
def node : Nat → Place → Reader Node
  | 0, _ => throw .missingNode
  | fuel + 1, place => do
    match ← peek with
    | some (.reference name) =>
      skip
      referenced name
    | _ =>
      let props ← properties
      anchored props.anchor (content fuel place props)

/-- The content of a node, after its properties. -/
def content : Nat → Place → Properties → Reader Node
  | 0, _, _ => throw .missingNode
  | fuel + 1, place, props => do
    match ← peek, place with
    | some .blockEntry, .entry => return .sequence props.tag (← compactItems fuel)
    | some (.scalar style text), _ =>
      skip
      return .scalar props.tag style text
    | some .flowSequenceStart, _ =>
      skip
      return .sequence props.tag (← flowItems fuel true)
    | some .flowMappingStart, _ =>
      skip
      return .mapping props.tag (← flowEntries fuel true)
    | some .blockSequenceStart, .block | some .blockSequenceStart, .entry =>
      skip
      return .sequence props.tag (← blockItems fuel)
    | some .blockMappingStart, .block | some .blockMappingStart, .entry =>
      skip
      return .mapping props.tag (← blockEntries fuel)
    | _, _ => if props.isGiven then return .scalar props.tag .plain "" else throw .missingNode

/-- A node, or an empty one if one of `stops` is next. -/
def nodeUnless : Nat → Place → List Token → Reader Node
  | 0, _, _ => throw .missingNode
  | fuel + 1, place, stops => do
    if ← isNext stops then return .empty else node fuel place

/-- The items of a block sequence, and its end. -/
def blockItems : Nat → Reader (List Node)
  | 0 => throw .unexpectedToken
  | fuel + 1 => do
    if ← accept .blockEntry then
      let item ← nodeUnless fuel .block [.blockEntry, .blockEnd]
      return item :: (← blockItems fuel)
    else if ← accept .blockEnd then return []
    else throw .unexpectedToken

/-- The items of a sequence that is not indented in the mapping entry it belongs to; nothing marks
its end. -/
def compactItems : Nat → Reader (List Node)
  | 0 => throw .unexpectedToken
  | fuel + 1 => do
    if ← accept .blockEntry then
      let item ← nodeUnless fuel .block [.blockEntry, .key, .value, .blockEnd]
      return item :: (← compactItems fuel)
    else return []

/-- The entries of a block mapping, and its end. -/
def blockEntries : Nat → Reader (List (Node × Node))
  | 0 => throw .unexpectedToken
  | fuel + 1 => do
    if ← accept .key then
      let key ← nodeUnless fuel .entry [.key, .value, .blockEnd]
      let value ← blockValue fuel
      return (key, value) :: (← blockEntries fuel)
    else if ← accept .blockEnd then return []
    else throw .unexpectedToken

/-- The value of a block mapping's entry. -/
def blockValue : Nat → Reader Node
  | 0 => throw .unexpectedToken
  | fuel + 1 => do
    if ← accept .value then nodeUnless fuel .entry [.key, .value, .blockEnd]
    else return .empty

/-- The items of a flow sequence, and its end; only the first follows without a comma. -/
def flowItems : Nat → Bool → Reader (List Node)
  | 0, _ => throw .unexpectedToken
  | fuel + 1, isFirst => do
    if ← accept .flowSequenceEnd then return []
    if !isFirst && !(← accept .flowEntry) then throw .unexpectedToken
    if ← accept .key then
      let pair ← flowPair fuel
      return .mapping none [pair] :: (← flowItems fuel false)
    else if ← accept .flowSequenceEnd then return []
    else
      let item ← node fuel .flow
      return item :: (← flowItems fuel false)

/-- A mapping of one entry, written in a flow sequence without braces.  Where its key is left out,
the token that shows this is passed over. -/
def flowPair : Nat → Reader (Node × Node)
  | 0 => throw .unexpectedToken
  | fuel + 1 => do
    let stops : List Token := [.flowEntry, .flowSequenceEnd]
    if ← isNext (.value :: stops) then
      skip
      return (.empty, ← flowValue fuel stops)
    else
      let key ← node fuel .flow
      return (key, ← flowValue fuel stops)

/-- The entries of a flow mapping, and its end; only the first follows without a comma. -/
def flowEntries : Nat → Bool → Reader (List (Node × Node))
  | 0, _ => throw .unexpectedToken
  | fuel + 1, isFirst => do
    if ← accept .flowMappingEnd then return []
    if !isFirst && !(← accept .flowEntry) then throw .unexpectedToken
    let stops : List Token := [.flowEntry, .flowMappingEnd]
    if ← accept .key then
      let key ← nodeUnless fuel .flow (.value :: stops)
      let value ← flowValue fuel stops
      return (key, value) :: (← flowEntries fuel false)
    else if ← accept .flowMappingEnd then return []
    else
      let key ← node fuel .flow
      return (key, .empty) :: (← flowEntries fuel false)

/-- The value of an entry in a flow collection. -/
def flowValue : Nat → List Token → Reader Node
  | 0, _ => throw .unexpectedToken
  | fuel + 1, stops => do
    if ← accept .value then nodeUnless fuel .flow stops else return .empty

end

/-! ## Documents -/

/-- Takes the directives of a document: at most one version, and one declaration per handle. -/
def directives : Nat → Bool → List (String × List UInt8) →
    Reader (Bool × List (String × List UInt8))
  | 0, hasVersion, handles => return (hasVersion, handles)
  | fuel + 1, hasVersion, handles => do
    match ← peek with
    | some (.versionDirective major minor) =>
      skip
      if hasVersion || major != 1 || (minor != 1 && minor != 2) then throw .badDirective
      directives fuel true handles
    | some (.tagDirective handle replacement) =>
      skip
      if (handles.lookup handle).isSome then throw .badDirective
      directives fuel hasVersion ((handle, replacement) :: handles)
    | _ => return (hasVersion, handles)

/-- Drops the marks after a document. -/
def skipEnds : List Token → List Token
  | .documentEnd :: tokens => skipEnds tokens
  | tokens => tokens

/-- The content of a document that has a mark at its start. -/
def markedContent (fuel : Nat) : Reader Node := do
  match ← peek with
  | none | some .documentStart | some .documentEnd | some (.versionDirective _ _)
  | some (.tagDirective _ _) => return .empty
  | some _ => node fuel .block

/-- The document that all the tokens make, or none if there are no tokens. -/
def document (fuel : Nat) : Reader (Option Document) := do
  if (← peek).isNone then return none
  let (hasVersion, declared) ← directives fuel false []
  modify fun r => { r with handles := declared ++ defaultHandles }
  let isMarked ← accept .documentStart
  if !isMarked && (hasVersion || !declared.isEmpty) then throw .unexpectedToken
  let root ← if isMarked then markedContent fuel else node fuel .block
  modify fun r => { r with tokens := skipEnds r.tokens }
  if (← peek).isSome then throw .trailingContent
  return some { root, anchors := (← get).anchors }

/-- The document of a list of tokens, or none if there are no tokens. -/
def ofTokens? (tokens : List Token) : Except Problem (Option Document) :=
  (document (4 * tokens.length + 4)).run' { tokens, handles := [], anchors := .empty }

end ByteEmbed.Yaml.Document
