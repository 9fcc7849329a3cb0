import PipelineShell.Host.Process
import PipelineShell.Utility.Quoting

namespace PipelineShell.Utility

open PipelineShell.Action Host

def put (data : ByteArray) : Action Bool := do
  match ← writeAll standardOutput data with
  | .ok () => return true
  | .error _ => return false

def putText (text : String) : Action Bool := put text.toUTF8

def complain (name message : String) : Action Unit := do
  let _ ← writeAll standardError (name ++ ": " ++ message ++ "\n").toUTF8

def errorText (errno : Errno) : String := Errno.systemText errno.number

def complainOf (name path : String) (errno : Errno) : Action Unit :=
  complain name (shellName path ++ ": " ++ errorText errno)

/-! ## Input -/

def openInput (path : String) : Action (Except Errno Descriptor) := do
  if path = "-" then return .ok standardInput
  perform (.openFile path { read := true })

def closeInput (descriptor : Descriptor) : Action Unit :=
  if descriptor = standardInput then return else closeAll [descriptor]

def chunkSize : Nat := 65536

/-- Feeds the pieces of an input to `step` as they come, and to `finish` what is left of the state
at the end. An error ends the input. -/
def foldChunks {σ α : Type} (descriptor : Descriptor) (size : Nat)
    (step : σ → ByteArray → Action (Turn σ α)) (finish : σ → Option Errno → Action α)
    (start : σ) : Action α :=
  loop (fun state => do
    match ← perform (.read descriptor size) with
    | .ok data =>
      if data.isEmpty then return .leave (← finish state none)
      step state data
    | .error errno =>
      if errno = .interrupted then return .again state
      return .leave (← finish state (some errno)))
    patience start

def readAll (descriptor : Descriptor) : Action (Except Errno ByteArray) :=
  foldChunks descriptor chunkSize (fun data more => return .again (data ++ more))
    (fun data error => return match error with
      | none => .ok data
      | some errno => .error errno)
    ByteArray.empty

def newline : UInt8 := 0x0a

def newlineFrom (data : ByteArray) (index : Nat) : Option Nat :=
  if h : index < data.size then
    if data[index] == newline then some index else newlineFrom data (index + 1)
  else none
termination_by data.size - index

theorem newlineFrom_ge {data : ByteArray} {index found : Nat}
    (h : newlineFrom data index = some found) : index ≤ found ∧ found < data.size := by
  fun_induction newlineFrom data index with
  | case1 index hi hb => grind
  | case2 index hi hb ih => grind
  | case3 index hi => grind

/-- The complete lines of a text from an index on, without their newlines, and what follows the
last newline. -/
def splitLinesFrom (data : ByteArray) (index : Nat) (lines : Array ByteArray) :
    Array ByteArray × ByteArray :=
  match h : newlineFrom data index with
  | some found =>
    splitLinesFrom data (found + 1) (lines.push (data.extract index found))
  | none => (lines, data.extract index data.size)
termination_by data.size - index
decreasing_by
  have := newlineFrom_ge h
  omega

def splitLines (data : ByteArray) : Array ByteArray × ByteArray := splitLinesFrom data 0 #[]

def allLines (data : ByteArray) : Array ByteArray :=
  let (lines, rest) := splitLines data
  if rest.isEmpty then lines else lines.push rest

/-- Feeds the lines of an input to `step` as they come, those of one read together. A last line
without a newline counts like any other; `step` is told whether the lines have all their
newlines. -/
def foldLines {σ α : Type} (descriptor : Descriptor)
    (step : σ → Array ByteArray → Bool → Action (Turn σ α)) (finish : σ → Option Errno → Action α)
    (start : σ) : Action α :=
  foldChunks descriptor chunkSize
    (fun (state, rest) data => do
      let (lines, rest) := splitLines (rest ++ data)
      if lines.isEmpty then return .again (state, rest)
      match ← step state lines true with
      | .again state => return .again (state, rest)
      | .leave value => return .leave value)
    (fun (state, rest) error => do
      if rest.isEmpty then finish state error
      else
        match ← step state #[rest] false with
        | .again state => finish state error
        | .leave value => return value)
    (start, ByteArray.empty)

def terminated (line : ByteArray) : ByteArray := line.push newline

def joinLines (lines : Array ByteArray) : ByteArray :=
  lines.foldl (fun data line => data ++ terminated line) ByteArray.empty

def closedIf (closed : Bool) (text : ByteArray) : ByteArray :=
  if closed then text else text.extract 0 (text.size - 1)

/-- Runs `each` on every input in order, standard input if there is none. The status is the
highest of all. -/
def forInputs (paths : List String) (each : String → Action Nat) : Action Nat :=
  go 0 (if paths.isEmpty then ["-"] else paths)
where
  go (status : Nat) : List String → Action Nat
    | [] => return status
    | path :: rest => do
      let next ← each path
      go (max status next) rest

def withInput (name path : String) (use : Descriptor → Action Nat) (failure : Nat := 1) :
    Action Nat := do
  match ← openInput path with
  | .error errno =>
    complainOf name path errno
    return failure
  | .ok descriptor =>
    let status ← use descriptor
    closeInput descriptor
    return status

/-! ## Options -/

structure OptionTable where
  flags : List Char := []
  values : List Char := []
  long : List (String × Char) := []
  permutes : Bool := true

structure Parsed where
  options : List (Char × String) := []
  operands : List String := []

namespace Parsed

def has (parsed : Parsed) (letter : Char) : Bool := parsed.options.any (·.1 == letter)

def value? (parsed : Parsed) (letter : Char) : Option String :=
  (parsed.options.reverse.find? (·.1 == letter)).map (·.2)

def addOption (parsed : Parsed) (letter : Char) (value : String := "") : Parsed :=
  { parsed with options := parsed.options ++ [(letter, value)] }

def addOperands (parsed : Parsed) (operands : List String) : Parsed :=
  { parsed with operands := parsed.operands ++ operands }

end Parsed

def readCluster (table : OptionTable) (parsed : Parsed) (rest : List String) :
    List Char → Except String (Parsed × List String)
  | [] => .ok (parsed, rest)
  | letter :: more =>
    if table.flags.contains letter then readCluster table (parsed.addOption letter) rest more
    else if table.values.contains letter then
      if more.isEmpty then
        match rest with
        | value :: rest => .ok (parsed.addOption letter value, rest)
        | [] => .error ("option requires an argument -- '" ++ letter.toString ++ "'")
      else .ok (parsed.addOption letter (String.ofList more), rest)
    else .error ("invalid option -- '" ++ letter.toString ++ "'")

def readLong (table : OptionTable) (parsed : Parsed) (text : String) (rest : List String) :
    Except String (Parsed × List String) :=
  let name := String.ofList (text.toList.takeWhile (· ≠ '='))
  let attached :=
    if text.contains '=' then some (String.ofList ((text.toList.dropWhile (· ≠ '=')).drop 1))
    else none
  let exact := table.long.filter (·.1 == name)
  let candidates := if exact.isEmpty then table.long.filter (·.1.startsWith name) else exact
  match candidates with
  | [(full, letter)] =>
    if table.values.contains letter then
      match attached, rest with
      | some value, _ => .ok (parsed.addOption letter value, rest)
      | none, value :: rest => .ok (parsed.addOption letter value, rest)
      | none, [] => .error ("option '--" ++ full ++ "' requires an argument")
    else
      match attached with
      | none => .ok (parsed.addOption letter, rest)
      | some _ => .error ("option '--" ++ full ++ "' doesn't allow an argument")
  | _ => .error ("unrecognized option '--" ++ name ++ "'")

def readOptions (table : OptionTable) : Nat → Parsed → List String → Except String Parsed
  | 0, parsed, arguments => .ok (parsed.addOperands arguments)
  | _ + 1, parsed, [] => .ok parsed
  | bound + 1, parsed, argument :: rest => do
    if argument = "--" then return parsed.addOperands rest
    else if argument.startsWith "--" then
      let (parsed, rest) ← readLong table parsed (argument.drop 2).toString rest
      readOptions table bound parsed rest
    else if argument.startsWith "-" && argument ≠ "-" then
      let (parsed, rest) ← readCluster table parsed rest (argument.toList.drop 1)
      readOptions table bound parsed rest
    else if table.permutes then
      readOptions table bound (parsed.addOperands [argument]) rest
    else return parsed.addOperands (argument :: rest)

def withOptions (invocation : Invocation) (table : OptionTable) (use : Parsed → Action Nat)
    (failure : Nat := 1) : Action Nat := do
  match readOptions table (invocation.arguments.length + 1) {} invocation.arguments with
  | .ok parsed => use parsed
  | .error message =>
    complain invocation.name message
    let _ ← writeAll standardError
      ("Try '" ++ invocation.name ++ " --help' for more information.\n").toUTF8
    return failure

def tryHelp (name : String) : Action Unit := do
  let _ ← writeAll standardError ("Try '" ++ name ++ " --help' for more information.\n").toUTF8

def integer? (text : String) : Option Int :=
  let number (digits : List Char) : Option Nat :=
    if digits.isEmpty || digits.any (!·.isDigit) then none
    else some (digits.foldl (fun value c => value * 10 + (c.toNat - '0'.toNat)) 0)
  match text.toList with
  | '-' :: digits => (number digits).map fun n => -(n : Int)
  | '+' :: digits => (number digits).map fun n => (n : Int)
  | digits => (number digits).map fun n => (n : Int)

def sizeOf? (text : String) : Option Nat :=
  let digits := text.toList.takeWhile Char.isDigit
  let suffix := String.ofList (text.toList.dropWhile Char.isDigit)
  let scale := match suffix with
    | "" => some 1
    | "b" => some 512
    | "kB" => some 1000
    | "k" | "K" | "KiB" => some 1024
    | "MB" => some 1000000
    | "M" | "m" | "MiB" => some 1048576
    | "GB" => some 1000000000
    | "G" | "GiB" => some 1073741824
    | "c" | "w" => if suffix = "c" then some 1 else some 2
    | _ => none
  if digits.isEmpty then none else scale.bind fun s => (String.ofList digits).toNat?.map (· * s)

def padLeft (width : Nat) (text : String) : String :=
  String.ofList (List.replicate (width - text.length) ' ') ++ text

end PipelineShell.Utility
