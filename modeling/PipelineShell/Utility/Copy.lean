import PipelineShell.Utility.Output

namespace PipelineShell.Utility

open PipelineShell.Action Host

inductive CopyEnd
  | complete
  | inputFailed (errno : Errno)
  | outputFailed (errno : Errno)

def CopyEnd.ofInput : Option Errno → CopyEnd
  | none => complete
  | some errno => inputFailed errno

def copyThrough (descriptor : Descriptor) : Action CopyEnd :=
  foldChunks descriptor 131072
    (fun () data => do
      match ← writeAll standardOutput data with
      | .ok () => return .again ()
      | .error errno => return .leave (.outputFailed errno))
    (fun () error => return .ofInput error)
    ()

structure CatOptions where
  numbers : Bool := false
  numbersNonblank : Bool := false
  squeeze : Bool := false
  ends : Bool := false
  tabs : Bool := false
  nonprinting : Bool := false

def visibleByte (byte : UInt8) : List UInt8 :=
  let low (b : UInt8) : List UInt8 :=
    if b < 32 then [0x5e, b + 64] else if b == 127 then [0x5e, 0x3f] else [b]
  if byte == 9 || byte == newline then [byte]
  else if byte < 128 then low byte else [0x4d, 0x2d] ++ low (byte - 128)

namespace CatOptions

def isPlain (options : CatOptions) : Bool :=
  !(options.numbers || options.numbersNonblank || options.squeeze || options.ends ||
    options.tabs || options.nonprinting)

def showLine (options : CatOptions) (closed : Bool) (line : ByteArray) : ByteArray :=
  let bytes := line.toList.flatMap fun byte =>
    if byte == 9 && options.tabs then [0x5e, 0x49]
    else if options.nonprinting then visibleByte byte else [byte]
  ⟨(if options.ends && closed then bytes ++ [0x24] else bytes).toArray⟩

def showLines (options : CatOptions) (lines : Array ByteArray) (closed : Bool)
    (state : Nat × Bool) : ByteArray × (Nat × Bool) :=
  lines.foldl (fun (output, number, blankBefore) line =>
    let blank := line.isEmpty
    if options.squeeze && blank && blankBefore then (output, number, true)
    else
      let counted := if options.numbersNonblank then !blank else options.numbers
      let number := if counted then number + 1 else number
      let label :=
        if counted then (padLeft 6 (toString number) ++ "\t").toUTF8 else ByteArray.empty
      (output ++ label ++ terminated (options.showLine closed line), number, blank))
    (ByteArray.empty, state.1, state.2)

end CatOptions

def isOwnOutput (descriptor : Descriptor) : Action Bool := do
  match ← perform (.descriptorInfo descriptor), ← perform (.descriptorInfo standardOutput) with
  | .ok input, .ok output =>
    if output.kind ≠ .regular || input.identity ≠ output.identity then return false
    match ← perform (.seek descriptor 0 .current) with
    | .ok position => return position < input.size
    | .error _ => return false
  | _, _ => return false

def catTable : OptionTable where
  flags := ['A', 'b', 'e', 'E', 'n', 's', 't', 'T', 'u', 'v']
  long := [("show-all", 'A'), ("number-nonblank", 'b'), ("show-ends", 'E'), ("number", 'n'),
    ("squeeze-blank", 's'), ("show-tabs", 'T'), ("show-nonprinting", 'v')]

def cat : Program := fun invocation =>
  withOptions invocation catTable fun parsed => do
    let any (letters : List Char) : Bool := letters.any parsed.has
    let options : CatOptions := {
      numbers := parsed.has 'n', numbersNonblank := parsed.has 'b', squeeze := parsed.has 's'
      ends := any ['A', 'E', 'e'], tabs := any ['A', 'T', 't']
      nonprinting := any ['A', 'e', 't', 'v'] }
    forInputs parsed.operands fun path =>
      withInput invocation.name path fun descriptor => do
        if ← isOwnOutput descriptor then
          complain invocation.name (shellName path ++ ": input file is output file")
          return 1
        let copied ←
          if options.isPlain then copyThrough descriptor else copyShown options descriptor
        match copied with
        | .complete => return 0
        | .outputFailed errno =>
          complain invocation.name ("write error: " ++ errorText errno)
          return 1
        | .inputFailed errno =>
          complainOf invocation.name path errno
          return 1
where
  copyShown (options : CatOptions) (descriptor : Descriptor) : Action CopyEnd :=
    foldLines descriptor
      (fun state lines closed => do
        let (output, state) := options.showLines lines closed state
        match ← writeAll standardOutput (closedIf closed output) with
        | .ok () => return .again state
        | .error errno => return .leave (.outputFailed errno))
      (fun _ error => return .ofInput error)
      (0, false)

def openOutputs (name : String) (mode : OpenMode) :
    List String → Action (List (String × Descriptor) × Nat)
  | [] => return ([], 0)
  | path :: rest => do
    match ← perform (.openFile path mode) with
    | .ok descriptor =>
      let (others, status) ← openOutputs name mode rest
      return ((path, descriptor) :: others, status)
    | .error errno =>
      complainOf name path errno
      let (others, _) ← openOutputs name mode rest
      return (others, 1)

def writeToEach (name : String) (data : ByteArray) :
    List (String × Descriptor) → Action (List (String × Descriptor) × Nat)
  | [] => return ([], 0)
  | (path, descriptor) :: rest => do
    match ← writeAll descriptor data with
    | .ok () =>
      let (others, status) ← writeToEach name data rest
      return ((path, descriptor) :: others, status)
    | .error errno =>
      complainOf name path errno
      let (others, _) ← writeToEach name data rest
      return (others, 1)

def tee : Program := fun invocation =>
  withOptions invocation
    { flags := ['a', 'i', 'p'], long := [("append", 'a'), ("ignore-interrupts", 'i')] }
    fun parsed => do
      let append := parsed.has 'a'
      let mode : OpenMode := { write := true, create := true, truncate := !append, append }
      let (outputs, status) ← openOutputs invocation.name mode parsed.operands
      foldChunks standardInput chunkSize
        (fun (outputs, status) data => do
          let (outputs, failed) ← writeToEach invocation.name data outputs
          return if outputs.isEmpty then .leave 1 else .again (outputs, max status failed))
        (fun (_, status) error => do
          if let some errno := error then
            complain invocation.name ("read error: " ++ errorText errno)
            return 1
          return status)
        (("standard output", standardOutput) :: outputs, status)

/-! ## Copying by blocks -/

def copyBlocks (input output : Descriptor) (size : Nat) (count : Option Nat) :
    Action (Except Errno (Nat × Nat × Nat)) :=
  loop (fun (full, short, bytes) => do
    if count.any (· ≤ full + short) then return .leave (.ok (full, short, bytes))
    match ← perform (.read input size) with
    | .error errno => return .leave (.error errno)
    | .ok data =>
      if data.isEmpty then return .leave (.ok (full, short, bytes))
      match ← writeAll output data with
      | .error errno => return .leave (.error errno)
      | .ok () =>
        let bytes := bytes + data.size
        return .again (if data.size = size then (full + 1, short, bytes)
          else (full, short + 1, bytes)))
    patience (0, 0, 0)

def operand? (operands : List String) (name : String) : Option String :=
  (operands.reverse.find? (·.startsWith (name ++ "="))).map fun text =>
    (text.drop (name.length + 1)).toString

def dd : Program := fun invocation => do
  let operand := operand? invocation.arguments
  let number (name : String) : Option Nat := (operand name).bind sizeOf?
  let size := (number "bs" <|> number "ibs").getD 512
  let input ← match operand "if" with
    | some path => do pure (path, ← perform (.openFile path { read := true }))
    | none => pure ("", .ok standardInput)
  match input with
  | (path, .error errno) =>
    complain invocation.name ("failed to open " ++ shellQuoted path ++ ": " ++ errorText errno)
    return 1
  | (_, .ok input) =>
    let truncate := !((operand "conv").any fun conversions =>
      (conversions.splitToList (· == ',')).contains "notrunc")
    let output ← match operand "of" with
      | some path => do
        pure (path, ← perform (.openFile path { write := true, create := true, truncate }))
      | none => pure ("", .ok standardOutput)
    match output with
    | (path, .error errno) =>
      complain invocation.name ("failed to open " ++ shellQuoted path ++ ": " ++ errorText errno)
      return 1
    | (_, .ok output) =>
      let _ ← skip input size ((number "skip").getD 0)
      let _ ← perform (.seek output (((number "seek").getD 0 * size : Nat) : Int) .current)
      match ← copyBlocks input output size (number "count") with
      | .error errno =>
        complain invocation.name ("error reading: " ++ errorText errno)
        return 1
      | .ok (full, short, _) =>
        let records := toString full ++ "+" ++ toString short ++ " records "
        if operand "status" ≠ some "none" then
          let _ ← writeAll standardError (records ++ "in\n" ++ records ++ "out\n").toUTF8
        return 0
where
  skip (input : Descriptor) (size count : Nat) : Action Unit := do
    if count = 0 then return
    match ← perform (.seek input ((count * size : Nat) : Int) .current) with
    | .ok _ => return
    | .error _ =>
      let _ ← readFull input (count * size)

end PipelineShell.Utility
