import PipelineShell.Script.Builtin.Basic
import PipelineShell.Utility.Format

namespace PipelineShell.Script.Builtin

open PipelineShell.Action Eval

def echoEscapes : Utility.Escape.Dialect :=
  { octal := .both, escape := true, hexadecimal := false, ends := true, quote := false }

def echo : Builtin := fun arguments => do
  let (newline, words) := match arguments with
    | "-n" :: rest => (false, rest)
    | all => (true, all)
  let (bytes, ended) := Utility.Escape.expand echoEscapes (" ".intercalate words)
  let bytes := if newline && !ended then bytes ++ [Utility.newline] else bytes
  writeOutput "echo" ⟨bytes.toArray⟩ 0

def printfDialect : Utility.Format.Dialect where
  text := { octal := .direct, escape := true, hexadecimal := false, ends := false, quote := true }
  argument := echoEscapes
  emptyCharacter := [0]
  precision := 53
  outOfRange text := text ++ ": Numerical result out of range"
  notNumeric text := text ++ ": expected numeric value"
  notCompletelyConverted text := text ++ ": not completely converted"

def printf : Builtin := fun arguments => do
  let (_, operands) ← options [] arguments
  match operands with
  | [] => Eval.fail "usage: printf format [arg ...]"
  | format :: operands =>
    let result := Utility.Format.print printfDialect format operands
    let status ← writeOutput "printf" result.output 0
    for message in result.complaints do warn message
    if let some directive := result.invalid then Eval.fail (directive ++ ": invalid directive")
    return if result.complaints.isEmpty then status else 1

end PipelineShell.Script.Builtin
