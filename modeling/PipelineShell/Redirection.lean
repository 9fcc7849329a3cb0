import PipelineShell.Failure
import PipelineShell.Statement
import PipelineShell.System.Action

/-!
# Redirections

The two ends that a statement's pipeline is connected to. The input is opened first, so a statement
whose input is missing leaves its output file as it was.
-/

namespace PipelineShell

open PipelineShell.Action

structure Redirection where
  input : Option Descriptor := none
  output : Option Descriptor := none
deriving Repr, DecidableEq

namespace Redirection

def inputMode : OpenMode := { read := true }

/-- An output is created with all permissions, less those that the process masks, and emptied. -/
def outputMode : OpenMode :=
  { read := true, write := true, create := true, truncate := true, permissions := 0o777 }

def openPath (path : Word) (mode : OpenMode) : Action (Except RunError Descriptor) := do
  if '\x00' ∈ path then return .error (.redirect path .nulInPath)
  match ← uninterrupted (perform (.openFile path.toString mode)) with
  | .ok descriptor => return .ok descriptor
  | .error errno => return .error (.redirect path (.ofErrno errno))

def openPath? (path : Option Word) (mode : OpenMode) :
    Action (Except RunError (Option Descriptor)) := do
  match path with
  | none => return .ok none
  | some path =>
    match ← openPath path mode with
    | .ok descriptor => return .ok (some descriptor)
    | .error error => return .error error

def openFor (statement : Statement) : Action (Except RunError Redirection) := do
  match ← openPath? statement.input inputMode with
  | .error error => return .error error
  | .ok input =>
    match ← openPath? statement.output outputMode with
    | .ok output => return .ok ⟨input, output⟩
    | .error error =>
      closeAll input.toList
      return .error error

def inputEnd (redirection : Redirection) : Descriptor := redirection.input.getD standardInput

def outputEnd (redirection : Redirection) : Descriptor := redirection.output.getD standardOutput

def close (redirection : Redirection) : Action Unit := do
  closeAll redirection.input.toList
  closeAll redirection.output.toList

end Redirection

end PipelineShell
