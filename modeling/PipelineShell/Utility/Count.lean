import PipelineShell.Utility.Output

namespace PipelineShell.Utility

open PipelineShell.Action Host

structure Counts where
  lines : Nat := 0
  words : Nat := 0
  characters : Nat := 0
  bytes : Nat := 0
  longest : Nat := 0
  inWord : Bool := false
  column : Nat := 0

namespace Counts

def isSpace (byte : UInt8) : Bool := byte == 0x20 || (9 ≤ byte && byte ≤ 13)

def addByte (counts : Counts) (byte : UInt8) : Counts :=
  let space := isSpace byte
  let line := byte == newline
  let column :=
    if line || byte == 12 || byte == 13 then 0
    else if byte == 9 then counts.column + (8 - counts.column % 8)
    else if 32 ≤ byte && byte < 127 then counts.column + 1
    else counts.column
  { counts with
    lines := if line then counts.lines + 1 else counts.lines
    words := if !space && !counts.inWord then counts.words + 1 else counts.words
    longest := max counts.longest column
    inWord := !space
    column }

def addData (counts : Counts) (all : Bool) (data : ByteArray) : Counts :=
  let counts :=
    if all then data.foldl addByte counts
    else { counts with
      lines := data.foldl (fun n byte => if byte == newline then n + 1 else n) counts.lines }
  { counts with bytes := counts.bytes + data.size, characters := counts.characters + data.size }

def add (a b : Counts) : Counts :=
  { lines := a.lines + b.lines, words := a.words + b.words
    characters := a.characters + b.characters, bytes := a.bytes + b.bytes
    longest := max a.longest b.longest }

end Counts

structure CountColumns where
  lines : Bool
  words : Bool
  characters : Bool
  bytes : Bool
  longest : Bool

namespace CountColumns

def values (columns : CountColumns) (counts : Counts) : List Nat :=
  (if columns.lines then [counts.lines] else []) ++
    (if columns.words then [counts.words] else []) ++
    (if columns.characters then [counts.characters] else []) ++
    (if columns.bytes then [counts.bytes] else []) ++
    (if columns.longest then [counts.longest] else [])

end CountColumns

/-- The width of the columns: as wide as the sizes of all files together need, and at least seven
where the size of an input is not known beforehand. -/
def countWidth (single : Bool) (paths : List String) : Action Nat := do
  if single && paths.length ≤ 1 then return 1
  go 0 1 (if paths.isEmpty then ["-"] else paths)
where
  go (total least : Nat) : List String → Action Nat
    | [] => return max least (toString total).length
    | path :: rest => do
      let info ←
        if path = "-" then perform (.descriptorInfo standardInput)
        else perform (.fileInfo path true)
      match info with
      | .ok info =>
        if info.kind = .regular then go (total + info.size) least rest
        else go total 7 rest
      | .error _ => go total least rest

def wc : Program := fun invocation =>
  withOptions invocation
    { flags := ['l', 'w', 'c', 'm', 'L']
      long := [("lines", 'l'), ("words", 'w'), ("bytes", 'c'), ("chars", 'm'),
        ("max-line-length", 'L')] }
    fun parsed => do
      let none := parsed.options.isEmpty
      let columns : CountColumns :=
        ⟨none || parsed.has 'l', none || parsed.has 'w', parsed.has 'm', none || parsed.has 'c',
          parsed.has 'L'⟩
      let single := (columns.values {}).length = 1
      let width ← countWidth single parsed.operands
      let showCounts (counts : Counts) (label : String) : Action Unit := do
        let fields := (columns.values counts).map fun n => padLeft width (toString n)
        let _ ← putText (" ".intercalate (fields ++ if label.isEmpty then [] else [label]) ++ "\n")
      let all := columns.words || columns.longest
      let paths := if parsed.operands.isEmpty then [""] else parsed.operands
      let (total, status) ← countAll invocation.name all showCounts {} 0 paths
      if 2 ≤ paths.length then showCounts total "total"
      return status
where
  countAll (name : String) (all : Bool) (showCounts : Counts → String → Action Unit)
      (total : Counts) (status : Nat) : List String → Action (Counts × Nat)
    | [] => return (total, status)
    | path :: rest => do
      match ← openInput (if path.isEmpty then "-" else path) with
      | .error errno =>
        complainOf name path errno
        countAll name all showCounts total 1 rest
      | .ok descriptor =>
        let (counts, error) ← foldChunks descriptor 16384
          (fun (counts : Counts) data => return .again (counts.addData all data))
          (fun counts error => return (counts, error)) {}
        closeInput descriptor
        if let some errno := error then
          complainOf name (if path.isEmpty then "standard input" else path) errno
        showCounts counts path
        countAll name all showCounts (total.add counts) (if error.isSome then 1 else status) rest

end PipelineShell.Utility
