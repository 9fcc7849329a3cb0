import PipelineShell.Failure
import PipelineShell.System.Action
import PipelineShell.Text.Utf8

/-!
# Reading lines of input

A script is read byte by byte, so that whatever follows a line is left for the programs that the
line starts; ill-formed bytes are replaced. A terminal hands over whole lines and is read through a
buffer; there ill-formed bytes are an error.
-/

namespace PipelineShell.Input

open PipelineShell.Action

def newline : UInt8 := 0x0a

def scriptBytes (turns : Nat) : Action (Except Errno (List UInt8)) :=
  loop (fun bytes => do
    match ← perform (.read standardInput 1) with
    | .ok data =>
      match data.data.toList with
      | [] => return .leave (.ok bytes.reverse)
      | byte :: _ =>
        return if byte = newline then .leave (.ok (byte :: bytes).reverse)
          else .again (byte :: bytes)
    | .error errno =>
      return if errno = .interrupted then .again bytes else .leave (.error errno))
    turns []

def scriptLine (turns : Nat) : Action (Except FileError (Option Word)) := do
  match ← scriptBytes turns with
  | .error errno => return .error (.ofErrno errno)
  | .ok [] => return .ok none
  | .ok bytes => return .ok (some (Utf8.decodeLossy bytes))

def bufferSize : Nat := 8192

def invalidText : FileError := .other "stream did not contain valid UTF-8"

structure Buffered where
  line : Except FileError (List UInt8)
  buffer : List UInt8

/-- Reads up to and including the next newline through a buffer, in at most `turns` reads. A
terminal may report the end of its input once and go on. -/
def terminalBytes (turns : Nat) (buffer : List UInt8) : Action Buffered :=
  loop (fun (bytes, buffer) => do
    match buffer.span (· ≠ newline) with
    | (before, byte :: after) => return .leave ⟨.ok (bytes ++ before ++ [byte]), after⟩
    | (before, []) =>
      match ← perform (.read standardInput bufferSize) with
      | .ok data =>
        return if data.isEmpty then .leave ⟨.ok (bytes ++ before), []⟩
          else .again (bytes ++ before, data.data.toList)
      | .error errno =>
        return if errno = .interrupted then .again (bytes ++ before, [])
          else .leave ⟨.error (.ofErrno errno), []⟩)
    turns ([], buffer)

def terminalLine (turns : Nat) (buffer : List UInt8) :
    Action (Except FileError (Option Word) × List UInt8) := do
  let ⟨line, buffer⟩ ← terminalBytes turns buffer
  match line with
  | .error error => return (.error error, buffer)
  | .ok [] => return (.ok none, buffer)
  | .ok bytes =>
    match Utf8.decode? bytes with
    | some text => return (.ok (some text), buffer)
    | none => return (.error invalidText, buffer)

end PipelineShell.Input
