import ByteEmbed.Program.Host

/-!
# ByteEmbed.Program.FileTree — a model of the files of a machine.

Files and directories are kept under their absolute paths, a path being its list of names.  A path
as it is written is resolved the way a machine does: name by name from the root or from a working
directory, where every name but the last must be that of a directory.  An operation fails here for
what is, or is not, in the tree; the other causes that a machine knows are those of `Faults`.
-/

namespace ByteEmbed

/-- An absolute path: the names from the root on. -/
abbrev Path : Type := List String

/-- What stands under a path. -/
inductive Entry where
  | file (bytes : List UInt8)
  | directory
deriving DecidableEq, Repr

/-- The files and directories of a machine; the root is always a directory. -/
structure FileTree where
  entries : List (Path × Entry)
deriving DecidableEq, Repr

namespace FileTree

/-- What stands under an absolute path. -/
def entry? (tree : FileTree) (path : Path) : Option Entry :=
  if path.isEmpty then some .directory else tree.entries.lookup path

/-- The bytes of the file under an absolute path. -/
def bytes? (tree : FileTree) (path : Path) : Option (List UInt8) :=
  match tree.entry? path with
  | some (.file bytes) => some bytes
  | _ => none

/-- The tree without the entry of a path. -/
def erase (tree : FileTree) (path : Path) : FileTree :=
  ⟨tree.entries.filter (·.1 != path)⟩

/-- The tree with an entry under a path, in place of one that is there. -/
def insert (tree : FileTree) (path : Path) (entry : Entry) : FileTree :=
  ⟨(tree.erase path).entries ++ [(path, entry)]⟩

/-! ## Resolving paths -/

/-- The greatest number of bytes in a name. -/
def longestName : Nat := 255

/-- The greatest number of bytes in a path as it is written. -/
def longestPath : Nat := 4095

/-- A path as it was resolved: an entry of a directory, which need not be there, or a directory
itself. -/
inductive Place where
  | named (path : Path) (mustBeDirectory : Bool)
  | directory (path : Path)
deriving DecidableEq, Repr

/-- The pieces of a text between slashes. -/
def pieces : List Char → List (List Char)
  | [] => [[]]
  | '/' :: text => [] :: pieces text
  | c :: text =>
    match pieces text with
    | [] => [[c]]
    | piece :: following => (c :: piece) :: following

/-- The names that a path as it is written is made of; slashes next to each other count as one. -/
def namesOf (text : String) : List String :=
  ((pieces text.toList).filter (!·.isEmpty)).map String.ofList

/-- Follows names from a directory. -/
def follow (tree : FileTree) (mustBeDirectory : Bool) (current : Path) :
    List String → Except HostError Place
  | [] => return .directory current
  | "." :: names => follow tree mustBeDirectory current names
  | ".." :: names => follow tree mustBeDirectory current.dropLast names
  | name :: names =>
    if longestName < name.utf8ByteSize then throw .nameTooLong
    else if names.isEmpty then return .named (current ++ [name]) mustBeDirectory
    else
      match tree.entry? (current ++ [name]) with
      | some .directory => follow tree mustBeDirectory (current ++ [name]) names
      | some (.file _) => throw .notADirectory
      | none => throw .notFound

/-- Resolves a path as it is written, from a working directory. -/
def resolve (tree : FileTree) (workingDirectory : Path) (text : String) :
    Except HostError Place :=
  if text.isEmpty then throw .notFound
  else if longestPath < text.utf8ByteSize then throw .nameTooLong
  else
    let start := if text.toList.head? = some '/' then [] else workingDirectory
    tree.follow (text.toList.getLast? == some '/') start (namesOf text)

/-! ## Operations on paths as they are written -/

/-- Reads a file.  A directory can be opened, and then gives no bytes. -/
def read (tree : FileTree) (workingDirectory : Path) (text : String) :
    Except ReadError (List UInt8) :=
  match tree.resolve workingDirectory text with
  | .error cause => throw (.opening cause)
  | .ok (.directory _) => throw (.reading .isADirectory)
  | .ok (.named path mustBeDirectory) =>
    match tree.entry? path with
    | some .directory => throw (.reading .isADirectory)
    | some (.file bytes) =>
      if mustBeDirectory then throw (.opening .notADirectory) else return bytes
    | none => throw (.opening .notFound)

/-- Writes a file, in place of one that is there.  A path that ends in a slash can only name a
directory, which cannot be written.  What else may be in the way of a writing, or may end it early,
is not a matter of the tree. -/
def write (tree : FileTree) (workingDirectory : Path) (text : String) (bytes : List UInt8) :
    Except HostError FileTree := do
  match ← tree.resolve workingDirectory text with
  | .directory _ => throw .isADirectory
  | .named _ true => throw .isADirectory
  | .named path false =>
    match tree.entry? path with
    | some .directory => throw .isADirectory
    | _ => return tree.insert path (.file bytes)

/-- Removes a file, if it is there. -/
def remove (tree : FileTree) (workingDirectory : Path) (text : String) : FileTree :=
  match tree.resolve workingDirectory text with
  | .ok (.named path false) => if (tree.bytes? path).isSome then tree.erase path else tree
  | _ => tree

/-- Whether a path leads to a file or a directory. -/
def leadsSomewhere (tree : FileTree) (workingDirectory : Path) (text : String) : Bool :=
  match tree.resolve workingDirectory text with
  | .ok (.directory _) => true
  | .ok (.named path mustBeDirectory) =>
    match tree.entry? path with
    | some .directory => true
    | some (.file _) => !mustBeDirectory
    | none => false
  | .error _ => false

/-! ## Contents of directories -/

/-- The files that stand in a directory, by their names. -/
def filesIn (tree : FileTree) (directory : Path) : List (String × List UInt8) :=
  tree.entries.filterMap fun (path, entry) =>
    match path.getLast?, entry with
    | some name, .file bytes => if path.dropLast = directory then some (name, bytes) else none
    | _, _ => none

/-- The files of a directory that were not there before, or had other bytes. -/
def changedIn (before after : FileTree) (directory : Path) : List (String × List UInt8) :=
  (after.filesIn directory).filter fun file => !(before.filesIn directory).contains file

end FileTree

end ByteEmbed
