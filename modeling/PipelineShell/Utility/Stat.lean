import PipelineShell.Utility.Output

namespace PipelineShell.Utility

open PipelineShell.Action Host

namespace Stat

def kindText (info : FileInfo) : String :=
  match info.kind with
  | .regular => if info.size = 0 then "regular empty file" else "regular file"
  | .directory => "directory"
  | .link => "symbolic link"
  | .device => "character special file"
  | .pipe => "fifo"
  | .terminal => "character special file"

def modeText (info : FileInfo) : String :=
  let letter := match info.kind with
    | .regular => '-'
    | .directory => 'd'
    | .link => 'l'
    | .device | .terminal => 'c'
    | .pipe => 'p'
  let bits := ['r', 'w', 'x', 'r', 'w', 'x', 'r', 'w', 'x'].zipIdx
  String.ofList (letter :: bits.map fun (c, i) =>
    if info.permissions >>> (8 - i) &&& 1 = 1 then c else '-')

def property (path : String) (info : FileInfo) : Char → Action String
  | 'a' => return String.ofList (Nat.toDigits 8 info.permissions)
  | 'A' => return modeText info
  | 's' => return toString info.size
  | 'n' => return path
  | 'N' => do
    match ← perform (.readLink path) with
    | .ok target => return shellQuoted path ++ " -> " ++ shellQuoted target
    | .error _ => return shellQuoted path
  | 'F' => return kindText info
  | 'i' => return toString info.identity
  | 'h' => return "1"
  | 'u' | 'g' => return "0"
  | 'U' | 'G' => return "root"
  | '%' => return "%"
  | _ => return "?"

def expand (path : String) (info : FileInfo) : List Char → Action String
  | [] => return ""
  | '%' :: c :: rest => do
    let text ← property path info c
    return text ++ (← expand path info rest)
  | c :: rest => do return c.toString ++ (← expand path info rest)

def table : OptionTable where
  flags := ['L', 'f', 't']
  values := ['c', 'p']
  long := [("format", 'c'), ("printf", 'p'), ("dereference", 'L')]

def each (invocation : Invocation) (parsed : Parsed) (format : List Char) (ending : String)
    (status : Nat) : List String → Action Nat
  | [] => return status
  | path :: rest => do
    match ← perform (.fileInfo path (parsed.has 'L')) with
    | .ok info =>
      let _ ← putText ((← expand path info format) ++ ending)
      each invocation parsed format ending status rest
    | .error errno =>
      complain invocation.name ("cannot statx " ++ shellQuoted path ++ ": " ++ errorText errno)
      each invocation parsed format ending 1 rest

def run (invocation : Invocation) (parsed : Parsed) : Action Nat := do
  if parsed.operands.isEmpty then
    complain invocation.name "missing operand"
    tryHelp invocation.name
    return 1
  match parsed.value? 'c', parsed.value? 'p' with
  | some format, _ => each invocation parsed format.toList "\n" 0 parsed.operands
  | none, some format =>
    let dialect : Escape.Dialect :=
      { octal := .direct, escape := true, hexadecimal := true, ends := false, quote := true }
    let (bytes, _) := Escape.expand dialect format
    let text := (String.fromUTF8? ⟨bytes.toArray⟩).getD ""
    each invocation parsed text.toList "" 0 parsed.operands
  | none, none => each invocation parsed "  File: %N\n  Size: %s\t%F".toList "\n" 0 parsed.operands

end Stat

def stat : Program := fun invocation =>
  withOptions invocation Stat.table (Stat.run invocation)

end PipelineShell.Utility
