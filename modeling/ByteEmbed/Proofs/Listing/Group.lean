import Mathlib.Data.List.Forall2
import ByteEmbed.Proofs.Hex
import ByteEmbed.Proofs.Listing.Line
import ByteEmbed.Proofs.Listing.Step

/-!
# ByteEmbed.Proofs.Listing.Group — the symbols of a listing, told by its headers.

A collector reads a listing in one pass and decides at each header what to do with the digits behind
it.  Here the same symbols are told without a state.  The lines are cut at every header into
*groups*; a group knows the headers that stand before it and the digits of its byte lines, joined.
The section of a group is the last one named before it, and its name is that of the last label
before it, when all labels are resolved once, in order, from one namer.

`Follows` is the invariant of the pass: a collector has in effect what the headers so far say.
-/

namespace ByteEmbed.Listing

/-! ## Groups -/

namespace Line

/-- The section that a line names, if it is the header of one. -/
def sectionName? : Line → Option String
  | sectionHeader name => some name
  | _ => none

/-- The label that a line holds, if it is the header of a symbol. -/
def label? : Line → Option String
  | symbolHeader label => some label
  | _ => none

/-- The digits of a line, if it is a byte line. -/
def digits? : Line → Option String
  | byteRun digits => some digits
  | _ => none

end Line

/-- The digits of all byte lines, joined. -/
def digitsOf (lines : List Line) : String :=
  String.join (lines.filterMap Line.digits?)

/-- The lines between two headers: every header that stands before them, and their digits. -/
structure Group where
  headers : List Line
  digits : String
deriving DecidableEq, Repr

/-- The groups of some lines, which are cut at every header. -/
def groups (lines : List Line) : List Group :=
  (lines.splitOnP Line.isHeader).mapIdx fun i run =>
    { headers := (lines.filter Line.isHeader).take i, digits := digitsOf run }

/-- The section in effect after some headers: the last one that is named. -/
def sectionAfter (headers : List Line) : String :=
  (headers.filterMap Line.sectionName?).getLast?.getD Collector.defaultSection

variable {σ : Type} [DigitSource σ]

/-- The name in effect after some headers, and the namer when every label among them has been
resolved once, in order. -/
def nameAfter (source : σ) (headers : List Line) : Name × Namer σ :=
  (headers.filterMap Line.label?).foldl (fun named label => named.2.nameOf label)
    (Namer.ofSource source).placeholder

/-- The real name of a label is the label. -/
theorem real_nameOf (namer : Namer σ) (label : String) : (namer.nameOf label).1.real = label := by
  unfold Namer.nameOf
  split
  · rfl
  · rfl

/-- `symbol` is what the lines of `group` stand for. -/
structure IsSymbolOf (source : σ) (group : Group) (symbol : Symbol) : Prop where
  section_eq : symbol.sectionName = sectionAfter group.headers
  name_eq : (⟨symbol.name, symbol.realName⟩ : Name) = (nameAfter source group.headers).1
  bytes_eq : Hex.Spells group.digits.toList symbol.bytes

/-! ## Cutting, line by line -/

theorem digitsOf_append (lines lines' : List Line) :
    digitsOf (lines ++ lines') = digitsOf lines ++ digitsOf lines' := by
  rw [digitsOf, List.filterMap_append, String.join_append]
  rfl

@[simp]
theorem digitsOf_nil : digitsOf [] = "" := rfl

@[simp]
theorem digitsOf_byteRun (digits : String) : digitsOf [.byteRun digits] = digits := by
  simp [digitsOf, Line.digits?]

@[simp]
theorem digitsOf_other : digitsOf [.other] = "" := rfl

theorem digitsOf_header {line : Line} (h : line.isHeader = true) : digitsOf [line] = "" := by
  cases line with
  | sectionHeader name => rfl
  | symbolHeader label => rfl
  | byteRun digits => cases h
  | other => cases h

/-- The group with more digits before its own. -/
def Group.behind (digits : String) (group : Group) : Group :=
  { group with digits := digits ++ group.digits }

theorem behind_empty : Group.behind "" = id := by
  funext group
  simp [Group.behind]

/-- The groups of lines that follow some headers, when some digits stand before the lines. -/
def groupsFrom (headers : List Line) (pending : String) (lines : List Line) : List Group :=
  ((lines.splitOnP Line.isHeader).mapIdx fun i run =>
    { headers := headers ++ (lines.filter Line.isHeader).take i
      digits := digitsOf run : Group }).modifyHead (Group.behind pending)

theorem groups_eq_groupsFrom (lines : List Line) : groups lines = groupsFrom [] "" lines := by
  simp only [groups, groupsFrom, behind_empty, List.modifyHead_id, List.nil_append, id]

theorem groupsFrom_nil (headers : List Line) (pending : String) :
    groupsFrom headers pending [] = [⟨headers, pending⟩] := by
  simp [groupsFrom, List.mapIdx_cons, Group.behind]

theorem groupsFrom_cons_header {line : Line} (h : line.isHeader = true) (headers : List Line)
    (pending : String) (lines : List Line) :
    groupsFrom headers pending (line :: lines)
      = ⟨headers, pending⟩ :: groupsFrom (headers ++ [line]) "" lines := by
  simp [groupsFrom, List.splitOnP_cons_eq_if_modifyHead, h, List.mapIdx_cons, behind_empty,
    List.modifyHead_id, Group.behind]

theorem groupsFrom_cons_of_not_header {line : Line} (h : line.isHeader = false)
    (headers : List Line) (pending : String) (lines : List Line) :
    groupsFrom headers pending (line :: lines)
      = groupsFrom headers (pending ++ digitsOf [line]) lines := by
  -- the line goes into the first run, and no run behind that one changes
  obtain ⟨run, runs, hruns⟩ := List.exists_cons_of_ne_nil
    (List.splitOnP_ne_nil Line.isHeader lines)
  have hdigits : digitsOf (line :: run) = digitsOf [line] ++ digitsOf run :=
    digitsOf_append [line] run
  simp [groupsFrom, List.splitOnP_cons_eq_if_modifyHead, h, hruns, List.mapIdx_cons, hdigits,
    Group.behind, String.append_assoc]

end ByteEmbed.Listing
