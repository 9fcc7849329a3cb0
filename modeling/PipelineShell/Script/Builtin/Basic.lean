import PipelineShell.Script.Reader
import PipelineShell.Script.State
import PipelineShell.Utility.Basic

namespace PipelineShell.Script

open PipelineShell.Action Eval

abbrev Builtin := List String → Eval Nat

namespace Builtin

def succeed : Builtin := fun _ => return 0

def fail : Builtin := fun _ => return 1

def writeOutput (name : String) (data : ByteArray) (status : Nat) : Eval Nat := do
  match ← act (writeAll standardOutput data) with
  | .ok () => return status
  | .error _ =>
    warn (name ++ ": I/O error")
    return 1

/-- Reads leading clusters of option letters. The letters of `values` take a value, which is the
rest of the cluster or the next argument. -/
def readOptions (letters values : List Char) (bound : Nat) (found : List (Char × String))
    (arguments : List String) : Eval (List (Char × String) × List String) := do
  match bound with
  | 0 => return (found, arguments)
  | bound + 1 =>
    match arguments with
    | [] => return (found, [])
    | "--" :: rest => return (found, rest)
    | argument :: rest =>
      match argument.toList with
      | '-' :: letter :: more =>
        let next := if more.isEmpty then rest else String.ofList ('-' :: more) :: rest
        if letters.contains letter then
          readOptions letters values bound (found ++ [(letter, "")]) next
        else if values.contains letter then
          match more, rest with
          | [], value :: rest => readOptions letters values bound (found ++ [(letter, value)]) rest
          | [], [] => Eval.fail ("No arg for -" ++ letter.toString ++ " option")
          | _, _ =>
            readOptions letters values bound (found ++ [(letter, String.ofList more)]) rest
        else Eval.fail ("Illegal option -" ++ letter.toString)
      | _ => return (found, arguments)

def options (letters : List Char) (arguments : List String) (values : List Char := []) :
    Eval (List (Char × String) × List String) :=
  readOptions letters values ((arguments.map (·.length + 1)).foldl (· + ·) 1) [] arguments

def isName (text : String) : Bool := Reader.isName text.toList

def quotedValue (value : String) : String :=
  "'" ++ value.replace "'" "'\"'\"'" ++ "'"

def count? (text : String) : Option Nat :=
  match Utility.integer? text with
  | some value => if 0 ≤ value then some value.toNat else none
  | none => none

def count (text : String) : Eval Nat := do
  match count? text with
  | some n => return n
  | none => Eval.fail ("Illegal number: " ++ text)

/-! ## The flow of control -/

def exit : Builtin := fun arguments => do
  match arguments with
  | [] => throw (.exit (← get).status)
  | text :: _ => throw (.exit ((← count text) % 256))

def leave : Builtin := fun arguments => do
  match arguments with
  | [] => throw (.leave (← get).status)
  | text :: _ => throw (.leave ((← count text) % 256))

def endLoops (flow : Nat → Flow) : Builtin := fun arguments => do
  let loops := (← get).loops
  match (arguments.head?.map count?).getD (some 1) with
  | some 0 | none => Eval.fail ("Illegal number: " ++ arguments.headD "")
  | some count =>
    if loops = 0 then return 0
    throw (flow (min count loops))

def breakLoops : Builtin := endLoops .breakLoops

def continueLoop : Builtin := endLoops .continueLoop

def shift : Builtin := fun arguments => do
  let shell ← get
  let places ← match arguments with
    | [] => pure 1
    | text :: _ => count text
  if shell.positional.length < places then Eval.fail "can't shift that many"
  set { shell with positional := shell.positional.drop places }
  return 0

end Builtin

end PipelineShell.Script
