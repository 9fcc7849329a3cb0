import PipelineShell.Utility.Format

namespace PipelineShell.Utility

open PipelineShell.Action Host

def outputOr (name : String) (data : ByteArray) (status : Nat) : Action Nat := do
  match ← writeAll standardOutput data with
  | .ok () => return status
  | .error errno =>
    complain name ("write error: " ++ errorText errno)
    return 1

def succeed : Program := fun _ => return 0

def fail : Program := fun _ => return 1

/-! ## Plain text -/

structure EchoOptions where
  newline : Bool := true
  escapes : Bool := false

def echoOptions (options : EchoOptions) : List String → EchoOptions × List String
  | [] => (options, [])
  | argument :: rest =>
    match argument.toList with
    | '-' :: c :: letters =>
      if (c :: letters).all fun letter => letter = 'n' || letter = 'e' || letter = 'E' then
        let options := (c :: letters).foldl (fun (options : EchoOptions) letter =>
          match letter with
          | 'n' => { options with newline := false }
          | 'e' => { options with escapes := true }
          | _ => { options with escapes := false }) options
        echoOptions options rest
      else (options, argument :: rest)
    | _ => (options, argument :: rest)

def echoEscapes : Escape.Dialect :=
  { octal := .afterZero, escape := true, hexadecimal := true, ends := true, quote := false }

def echo : Program := fun invocation => do
  let (options, words) := echoOptions {} invocation.arguments
  let text := " ".intercalate words
  let (bytes, ended) :=
    if options.escapes then Escape.expand echoEscapes text else (text.toUTF8.toList, false)
  let bytes := if options.newline && !ended then bytes ++ [newline] else bytes
  outputOr invocation.name ⟨bytes.toArray⟩ 0

/-! ## Formats -/

def printfDialect : Format.Dialect where
  text := { octal := .direct, escape := true, hexadecimal := true, ends := true, quote := true }
  argument := { octal := .both, escape := true, hexadecimal := true, ends := true, quote := true }
  emptyCharacter := [0]
  precision := 64
  outOfRange text := quoted text ++ ": Numerical result out of range"
  notNumeric text := quoted text ++ ": expected a numeric value"
  notCompletelyConverted text := quoted text ++ ": value not completely converted"

def printf : Program := fun invocation => do
  let arguments := match invocation.arguments with
    | "--" :: rest => rest
    | all => all
  match arguments with
  | [] =>
    complain invocation.name "missing operand"
    tryHelp invocation.name
    return 1
  | format :: operands =>
    let result := Format.print printfDialect format operands
    let written ← outputOr invocation.name result.output 0
    for message in result.complaints do complain invocation.name message
    if let some conversion := result.invalid then
      complain invocation.name (conversion ++ ": invalid conversion specification")
      return 1
    let ignored := !Format.hasConversion (Format.parts printfDialect format)
    if let (true, extra :: _) := (ignored, operands) then
      complain invocation.name ("warning: ignoring excess arguments, starting with " ++
        quoted extra)
    return if result.complaints.isEmpty then written else 1

/-! ## Endless output -/

def filledBlock (text : ByteArray) : ByteArray :=
  (List.replicate (8192 / max 1 text.size + 1) text).foldl (· ++ ·) ByteArray.empty

def yes : Program := fun invocation => do
  let words := if invocation.arguments.isEmpty then ["y"] else invocation.arguments
  let block := filledBlock (" ".intercalate words ++ "\n").toUTF8
  loop (fun () => do
    match ← writeAll standardOutput block with
    | .ok () => return .again ()
    | .error errno =>
      complain invocation.name ("standard output: " ++ errorText errno)
      return .leave 1)
    patience ()

end PipelineShell.Utility
