import PipelineShell.Utility.Sorting

/-!
# Programs that compare two files

`cmp` finds the first byte that differs, `comm` merges two sorted files and tells their lines
apart, `diff` shows the changes that make one file of the other.
-/

namespace PipelineShell.Utility

open PipelineShell.Action Host

namespace Comparison

def contents (name : String) (silent : Bool) (path : String) : Action (Option ByteArray) := do
  match ← openInput path with
  | .error errno =>
    if !silent then complainOf name path errno
    return none
  | .ok descriptor =>
    let data ← readAll descriptor
    closeInput descriptor
    match data with
    | .ok data => return some data
    | .error errno =>
      complainOf name path errno
      return none

def trouble (name message : String) : Action Nat := do
  complain name message
  complain name ("Try '" ++ name ++ " --help' for more information.")
  return 2

def withPair (invocation : Invocation) (table : OptionTable)
    (use : Parsed → String → String → Action Nat) : Action Nat := do
  match readOptions table (invocation.arguments.length + 1) {} invocation.arguments with
  | .error message => trouble invocation.name message
  | .ok parsed =>
    match parsed.operands with
    | [first, second] => use parsed first second
    | _ :: _ :: extra :: _ => trouble invocation.name ("extra operand " ++ quoted extra)
    | operands =>
      let last := operands.getLast?.getD invocation.name
      trouble invocation.name ("missing operand after " ++ quoted last)

end Comparison

/-! ## Bytes -/

namespace Cmp

def differences (position : Nat) : List UInt8 → List UInt8 → List (Nat × UInt8 × UInt8)
  | x :: a, y :: b =>
    if x == y then differences (position + 1) a b
    else (position, x, y) :: differences (position + 1) a b
  | _, _ => []

def newlines (data : ByteArray) (size : Nat) : Nat :=
  ((data.toList.take size).filter (· == newline)).length

def octalText (byte : UInt8) : String :=
  padLeft 3 (String.ofList (Nat.toDigits 8 byte.toNat))

def endText (path : String) (data : ByteArray) (inLines : Bool) : String :=
  let lines := newlines data data.size
  "EOF on " ++ path ++
    if data.isEmpty then " which is empty"
    else " after byte " ++ toString data.size ++
      if !inLines then ""
      else if data.data.back? = some newline then ", line " ++ toString lines
      else ", in line " ++ toString (lines + 1)

def table : OptionTable where
  flags := ['s', 'l', 'b']
  values := ['n']
  long := [("quiet", 's'), ("silent", 's'), ("verbose", 'l'), ("print-bytes", 'b'), ("bytes", 'n')]

def run (name : String) (parsed : Parsed) (first second : String) : Action Nat := do
  let silent := parsed.has 's'
  let contents := Comparison.contents name silent
  let some a ← contents first | return 2
  let some b ← contents second | return 2
  let limit := ((parsed.value? 'n').bind sizeOf?).getD (max a.size b.size)
  let a := a.extract 0 limit
  let b := b.extract 0 limit
  let found := differences 1 a.toList b.toList
  if silent then return if found.isEmpty && a.size = b.size then 0 else 1
  let listing := parsed.has 'l'
  if listing then
    let width := (toString (min a.size b.size)).length
    let _ ← putText (String.join (found.map fun (position, x, y) =>
      padLeft width (toString position) ++ " " ++ octalText x ++ " " ++ octalText y ++ "\n"))
  match found, listing with
  | (position, x, y) :: _, false =>
    let line := toString (newlines a (position - 1) + 1)
    let pair := first ++ " " ++ second ++ " differ: "
    let _ ← putText <|
      if parsed.has 'b' then
        pair ++ "byte " ++ toString position ++ ", line " ++ line ++ " is " ++ octalText x ++ " " ++
          (Char.ofNat x.toNat).toString ++ " " ++ octalText y ++ " " ++
          (Char.ofNat y.toNat).toString ++ "\n"
      else pair ++ "char " ++ toString position ++ ", line " ++ line ++ "\n"
    return 1
  | _, _ =>
    if a.size ≠ b.size then
      complain name (if a.size < b.size then endText first a !listing
        else endText second b !listing)
      return 1
    return if found.isEmpty then 0 else 1

end Cmp

def cmp : Program := fun invocation =>
  Comparison.withPair
    (match invocation.arguments with
      | [single] => { invocation with arguments := [single, "-"] }
      | _ => invocation)
    Cmp.table (Cmp.run invocation.name)

/-! ## Sorted lines -/

namespace Comm

inductive Column
  | first
  | second
  | both
deriving DecidableEq

inductive OrderCheck
  | never
  | unpaired
  | always
deriving DecidableEq

structure Side where
  before : Option ByteArray := none
  lines : List ByteArray

/-- Goes on to the next line. The result is also whether the order of the lines is wrong there; at
the end of the file the last two lines are looked at again. -/
def Side.advance (side : Side) : Side × Bool :=
  match side.lines with
  | [] => (side, false)
  | line :: rest =>
    let pair := match rest with
      | next :: _ => some (line, next)
      | [] => side.before.map (·, line)
    ({ before := some line, lines := rest },
      pair.any fun (a, b) => Sorting.compareBytes a b = .gt)

/-- What is said so far: the numbers of the files that are not in order, and whether a line was
not in both. -/
structure Findings where
  disordered : List Nat := []
  unpaired : Bool := false

def Findings.add (findings : Findings) (check : OrderCheck) (file : Nat) (disorder : Bool) :
    Findings :=
  let checking := check = .always || (check = .unpaired && findings.unpaired)
  if checking && disorder && !findings.disordered.contains file then
    { findings with disordered := findings.disordered ++ [file] }
  else findings

/-- Merges two files of at most `bound` lines together. Where the order is always checked, the
first line out of order ends it. -/
def merge (check : OrderCheck) : Nat → Findings → Side → Side → List (Column × ByteArray) × List Nat
  | 0, findings, _, _ => ([], findings.disordered)
  | bound + 1, findings, a, b =>
    let next : Option (Column × ByteArray) := match a.lines, b.lines with
      | x :: _, y :: _ =>
        match Sorting.compareBytes x y with
        | .lt => some (.first, x)
        | .eq => some (.both, x)
        | .gt => some (.second, y)
      | x :: _, [] => some (.first, x)
      | [], y :: _ => some (.second, y)
      | [], [] => none
    match next with
    | none => ([], findings.disordered)
    | some (column, line) =>
      let findings := { findings with unpaired := findings.unpaired || column ≠ Column.both }
      let (a, disorder) := if column = .second then (a, false) else a.advance
      let findings := findings.add check 1 disorder
      let (b, disorder) := if column = .first then (b, false) else b.advance
      let findings := findings.add check 2 disorder
      if check = .always && !findings.disordered.isEmpty then
        ([(column, line)], findings.disordered.take 1)
      else
        let (lines, disordered) := merge check bound findings a b
        ((column, line) :: lines, disordered)

structure Layout where
  first : Bool
  second : Bool
  both : Bool
  delimiter : String

def Layout.line (layout : Layout) : Column × ByteArray → Option ByteArray
  | (.first, line) => if layout.first then some line else none
  | (.second, line) =>
    if layout.second then
      some ((if layout.first then layout.delimiter else "").toUTF8 ++ line)
    else none
  | (.both, line) =>
    if layout.both then
      some (((if layout.first then layout.delimiter else "") ++
        (if layout.second then layout.delimiter else "")).toUTF8 ++ line)
    else none

def table : OptionTable where
  flags := ['1', '2', '3', 'a', 'n']
  values := ['d']
  long := [("check-order", 'a'), ("nocheck-order", 'n'), ("output-delimiter", 'd')]

def run (invocation : Invocation) (parsed : Parsed) : Action Nat := do
  let fail (message : String) : Action Nat := do
    complain invocation.name message
    tryHelp invocation.name
    return 1
  match parsed.operands with
  | [] => fail "missing operand"
  | [single] => fail ("missing operand after " ++ quoted single)
  | _ :: _ :: extra :: _ => fail ("extra operand " ++ quoted extra)
  | [first, second] =>
    let some a ← Comparison.contents invocation.name false first | return 1
    let some b ← Comparison.contents invocation.name false second | return 1
    let check : OrderCheck :=
      if parsed.has 'a' then .always else if parsed.has 'n' then .never else .unpaired
    let a := (allLines a).toList
    let b := (allLines b).toList
    let (merged, disordered) := merge check (a.length + b.length) {} { lines := a } { lines := b }
    let layout : Layout :=
      ⟨!parsed.has '1', !parsed.has '2', !parsed.has '3', (parsed.value? 'd').getD "\t"⟩
    let status ← outputOr invocation.name (joinLines (merged.filterMap layout.line).toArray) 0
    for file in disordered do
      complain invocation.name ("file " ++ toString file ++ " is not in sorted order")
    if disordered.isEmpty then return status
    if check ≠ .always then complain invocation.name "input is not in sorted order"
    return 1

end Comm

def comm : Program := fun invocation =>
  withOptions invocation Comm.table (Comm.run invocation)

/-! ## Changes -/

namespace Diff

inductive Edit
  | keep
  | remove
  | add
deriving DecidableEq

variable {α : Type} [BEq α]

def common (a b : Array α) (i j : Nat) : Nat :=
  if h : i < a.size ∧ j < b.size then
    if a[i] == b[j] then common a b (i + 1) (j + 1) else i
  else i
termination_by a.size - i

/-- For each difference between the counts of lines taken from two files, how many can be taken
from the first one. The differences `-n, -n + 2, …, n` are those that `n` edits can make. -/
abbrev Reach := Array (Option Nat)

def Reach.next (a b : Array α) (n : Nat) (before : Reach) : Reach :=
  Array.ofFn fun place : Fin (n + 1) =>
    let i := place.val
    let other (taken : Nat) : Nat := taken + n - 2 * i
    let removing :=
      if i = 0 then none
      else (before.getD (i - 1) none).bind fun taken =>
        if taken < a.size then some (taken + 1) else none
    let adding := (before.getD i none).filter fun taken => other taken ≤ b.size
    let farther := match removing, adding with
      | some x, some y => some (max x y)
      | some x, none => some x
      | none, y => y
    farther.map fun taken => common a b taken (other taken)

/-- Whether a reach includes the first `taken` lines of one file and the first `other` lines of
the other. -/
def Reach.includes (reach : Reach) (taken other : Nat) : Bool :=
  let n := reach.size - 1
  other ≤ taken + n && (reach.getD ((taken + n - other) / 2) none).any (taken ≤ ·)

def reaches (a b : Array α) : Nat → List Reach → List Reach
  | 0, found => found
  | bound + 1, found =>
    let n := found.length
    let reach : Reach :=
      match found with
      | [] => #[some (common a b 0 0)]
      | before :: _ => before.next a b n
    let complete := (a.size + n - b.size) % 2 = 0 && reach.includes a.size b.size
    if complete then reach :: found else reaches a b bound (reach :: found)

/-- The shortest way from one file to the other. Lines are kept as early as possible and removed
before others are added. `levels` says what ever fewer edits reach from the ends of the files. -/
def editsAlong : List Reach → List α → List α → List Edit
  | levels, x :: a, y :: b =>
    if x == y then .keep :: editsAlong levels a b
    else
      let levels := levels.drop 1
      if (levels.headD #[]).includes a.length (b.length + 1) then
        .remove :: editsAlong levels a (y :: b)
      else .add :: editsAlong levels (x :: a) b
  | _, a, b => a.map (fun _ => .remove) ++ b.map (fun _ => .add)
termination_by _ a b => a.length + b.length

def edits (a b : List α) : List Edit :=
  let back := reaches a.reverse.toArray b.reverse.toArray (a.length + b.length + 1) []
  editsAlong back a b

structure Change where
  before : Nat
  removed : Nat
  otherBefore : Nat
  added : Nat

def changes (before otherBefore : Nat) (open? : Option Change) : List Edit → List Change
  | [] => open?.toList
  | .keep :: rest => open?.toList ++ changes (before + 1) (otherBefore + 1) none rest
  | .remove :: rest =>
    let change := open?.getD ⟨before, 0, otherBefore, 0⟩
    changes (before + 1) otherBefore (some { change with removed := change.removed + 1 }) rest
  | .add :: rest =>
    let change := open?.getD ⟨before, 0, otherBefore, 0⟩
    changes before (otherBefore + 1) (some { change with added := change.added + 1 }) rest

def rangeText (before count : Nat) : String :=
  if count = 0 then toString before
  else if count = 1 then toString (before + 1)
  else toString (before + 1) ++ "," ++ toString (before + count)

def Change.letter (change : Change) : String :=
  if change.added = 0 then "d" else if change.removed = 0 then "a" else "c"

def markedLine (mark : String) (line : ByteArray × Bool) : ByteArray :=
  mark.toUTF8 ++ terminated line.1 ++
    (if line.2 then "" else "\\ No newline at end of file\n").toUTF8

def Change.shown (a b : List (ByteArray × Bool)) (change : Change) : ByteArray :=
  let heading := rangeText change.before change.removed ++ change.letter ++
    rangeText change.otherBefore change.added ++ "\n"
  let marked (mark : String) (lines : List (ByteArray × Bool)) : ByteArray :=
    lines.foldl (fun text line => text ++ markedLine mark line) ByteArray.empty
  let between := if change.removed = 0 || change.added = 0 then "" else "---\n"
  heading.toUTF8 ++ marked "< " ((a.drop change.before).take change.removed) ++ between.toUTF8 ++
    marked "> " ((b.drop change.otherBefore).take change.added)

def markedLines (data : ByteArray) : List (ByteArray × Bool) :=
  let (lines, rest) := splitLines data
  lines.toList.map (·, true) ++ if rest.isEmpty then [] else [(rest, false)]

def isBlank (byte : UInt8) : Bool := byte == 0x20 || (9 ≤ byte && byte ≤ 13)

def spaced : List UInt8 → List UInt8
  | [] => []
  | byte :: rest =>
    if isBlank byte then
      match spaced rest with
      | [] => []
      | 0x20 :: more => 0x20 :: more
      | more => 0x20 :: more
    else byte :: spaced rest

def comparedPart (parsed : Parsed) (line : ByteArray × Bool) : List UInt8 × Bool :=
  let text := line.1.toList
  let text := if parsed.has 'i' then text.map Sorting.upperByte else text
  if parsed.has 'w' then (text.filter (!isBlank ·), true)
  else if parsed.has 'b' then (spaced text, true)
  else (text, line.2)

def table : OptionTable where
  flags := ['q', 's', 'i', 'b', 'w', 'a']
  long := [("brief", 'q'), ("report-identical-files", 's'), ("ignore-case", 'i'),
    ("ignore-space-change", 'b'), ("ignore-all-space", 'w'), ("text", 'a')]

def run (name : String) (parsed : Parsed) (first second : String) : Action Nat := do
  let a ← Comparison.contents name false first
  let b ← if first = second then pure a else Comparison.contents name false second
  let some a := a | return 2
  let some b := b | return 2
  let isBinary (data : ByteArray) : Bool := !parsed.has 'a' && data.toList.contains 0
  let pair := first ++ " and " ++ second
  if a.data = b.data then
    if parsed.has 's' then
      let _ ← putText ("Files " ++ pair ++ " are identical\n")
    return 0
  if isBinary a || isBinary b then
    let brief := parsed.has 'q'
    let _ ← putText ((if brief then "Files " else "Binary files ") ++ pair ++ " differ\n")
    return if brief then 1 else 2
  let a := markedLines a
  let b := markedLines b
  let found := changes 0 0 none
    (edits (a.map (comparedPart parsed)) (b.map (comparedPart parsed)))
  if found.isEmpty then
    if parsed.has 's' then
      let _ ← putText ("Files " ++ pair ++ " are identical\n")
    return 0
  if parsed.has 'q' then
    let _ ← putText ("Files " ++ pair ++ " differ\n")
    return 1
  let _ ← put (found.foldl (fun text change => text ++ change.shown a b) ByteArray.empty)
  return 1

end Diff

def diff : Program := fun invocation =>
  Comparison.withPair invocation Diff.table (Diff.run invocation.name)

end PipelineShell.Utility
