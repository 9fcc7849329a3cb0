import PipelineShell.Utility.Output

namespace PipelineShell.Utility

open PipelineShell.Action Host

inductive Extent
  | lines (count : Nat)
  | bytes (count : Nat)
  | otherLines (count : Nat)
  | otherBytes (count : Nat)

def extent? (bytes : Bool) (mark : Char) (text : String) : Option Extent :=
  match text.toList with
  | [] => none
  | c :: rest =>
    if c = mark then
      (sizeOf? (String.ofList rest)).map fun n => if bytes then .otherBytes n else .otherLines n
    else
      let digits := if c = '-' || c = '+' then String.ofList rest else text
      (sizeOf? digits).map fun n => if bytes then .bytes n else .lines n

def withCount (arguments : List String) : List String :=
  match arguments with
  | first :: rest =>
    match first.toList with
    | '-' :: c :: more =>
      if c.isDigit then
        let digits := (c :: more).takeWhile Char.isDigit
        let letters := (c :: more).drop digits.length
        let option := if 'c' ∈ letters then "-c" else "-n"
        option :: String.ofList digits :: rest
      else arguments
    | _ => arguments
  | [] => []

def skipLines (data : ByteArray) (start : Nat) : Nat → Nat × Nat
  | 0 => (start, 0)
  | count + 1 =>
    match newlineFrom data start with
    | some found => skipLines data (found + 1) count
    | none => (data.size, count + 1)

def lastLines (data : ByteArray) (count : Nat) : ByteArray :=
  let (lines, rest) := splitLines data
  let total := lines.size + (if rest.isEmpty then 0 else 1)
  let (start, _) := skipLines data 0 (total - count)
  data.extract start data.size

def headBlock : Nat := 8192

def headLines (descriptor : Descriptor) (count : Nat) : Action (Option Errno) :=
  if count = 0 then return none
  else
    foldChunks descriptor headBlock
      (fun missing data => do
        let (stop, missing) := skipLines data 0 missing
        let _ ← put (data.extract 0 stop)
        if missing = 0 then
          let surplus := data.size - stop
          if 0 < surplus then
            let _ ← perform (.seek descriptor (-(surplus : Int)) .current)
          return .leave none
        return .again missing)
      (fun _ error => return error) count

def headBytes (descriptor : Descriptor) (count : Nat) : Action (Option Errno) :=
  loop (fun missing => do
    if missing = 0 then return .leave none
    match ← perform (.read descriptor (min missing headBlock)) with
    | .ok data =>
      if data.isEmpty then return .leave none
      if ← put data then return .again (missing - data.size) else return .leave none
    | .error errno => return .leave (some errno))
    patience count

def headExtent (descriptor : Descriptor) : Extent → Action (Option Errno)
  | .lines count => headLines descriptor count
  | .bytes count => headBytes descriptor count
  | .otherLines count => do
    match ← readAll descriptor with
    | .ok data =>
      let _ ← put (data.extract 0 (data.size - (lastLines data count).size))
      return none
    | .error errno => return some errno
  | .otherBytes count => do
    match ← readAll descriptor with
    | .ok data =>
      let _ ← put (data.extract 0 (data.size - count))
      return none
    | .error errno => return some errno

def tailExtent (descriptor : Descriptor) (extent : Extent) : Action (Option Errno) := do
  match ← readAll descriptor with
  | .error errno => return some errno
  | .ok data =>
    let _ ← put (match extent with
      | .lines count => lastLines data count
      | .bytes count => data.extract (data.size - count) data.size
      | .otherLines count => data.extract (skipLines data 0 (count - 1)).1 data.size
      | .otherBytes count => data.extract (count - 1) data.size)
    return none

def showInputs (name : String) (titles : Bool) (use : Descriptor → Action (Option Errno))
    (paths : List String) : Action Nat :=
  go 0 true (if paths.isEmpty then ["-"] else paths)
where
  go (status : Nat) (isFirst : Bool) : List String → Action Nat
    | [] => return status
    | path :: rest => do
      match ← openInput path with
      | .error errno =>
        complain name ("cannot open " ++ shellQuoted path ++ " for reading: " ++ errorText errno)
        go 1 isFirst rest
      | .ok descriptor =>
        if titles then
          let title := if path = "-" then "standard input" else path
          let _ ← putText ((if isFirst then "" else "\n") ++ "==> " ++ title ++ " <==\n")
        let error ← use descriptor
        closeInput descriptor
        match error with
        | none => go status false rest
        | some errno =>
          complain name ("error reading " ++
            shellQuoted (if path = "-" then "standard input" else path) ++ ": " ++ errorText errno)
          go 1 false rest

def extentTable : OptionTable where
  flags := ['q', 'v', 'f', 'F']
  values := ['n', 'c']
  long := [("lines", 'n'), ("bytes", 'c'), ("quiet", 'q'), ("silent", 'q'), ("verbose", 'v')]

def showExtent (mark : Char) (use : Descriptor → Extent → Action (Option Errno)) : Program :=
  fun invocation =>
    withOptions { invocation with arguments := withCount invocation.arguments } extentTable
      fun parsed => do
        let wanted := parsed.options.filter fun (letter, _) => letter = 'n' || letter = 'c'
        let (letter, text) := wanted.getLast?.getD ('n', "10")
        let titles :=
          !parsed.has 'q' && (parsed.has 'v' || 2 ≤ parsed.operands.length)
        match extent? (letter = 'c') mark text with
        | none =>
          let what := if letter = 'c' then "bytes" else "lines"
          complain invocation.name ("invalid number of " ++ what ++ ": " ++ quoted text)
          return 1
        | some extent => showInputs invocation.name titles (use · extent) parsed.operands

def head : Program := showExtent '-' headExtent

def tail : Program := showExtent '+' tailExtent

def reversedLines (data : ByteArray) : ByteArray :=
  let (lines, rest) := splitLines data
  lines.foldr (fun line output => output ++ terminated line) rest

def tac : Program := fun invocation =>
  withOptions invocation {} fun parsed =>
    forInputs parsed.operands fun path => do
      match ← openInput path with
      | .error errno =>
        complain invocation.name
          ("failed to open " ++ shellQuoted path ++ " for reading: " ++ errorText errno)
        return 1
      | .ok descriptor =>
        let data ← readAll descriptor
        closeInput descriptor
        match data with
        | .ok data => outputOr invocation.name (reversedLines data) 0
        | .error errno =>
          let shown := if path = "-" then "standard input" else path
          complain invocation.name (shellName shown ++ ": read error: " ++ errorText errno)
          return 1

end PipelineShell.Utility
