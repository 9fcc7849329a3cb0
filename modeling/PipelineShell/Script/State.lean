import PipelineShell.Script.Command
import PipelineShell.System.Action

namespace PipelineShell.Script

open PipelineShell.Action

structure Variable where
  value : Option String
  exported : Bool := false
  readOnly : Bool := false

structure Job where
  number : Nat
  pid : Int
  report : Option ChildReport := none
  waited : Bool := false

structure Shell where
  name : String
  command : Option String := none
  positional : List String := []
  bindings : List (String × Variable) := []
  functions : List (String × Command) := []
  status : Nat := 0
  pid : Int
  parent : Int
  background : Option Int := none
  jobs : List Job := []
  line : Nat := 0
  flags : List Char := []
  traps : List (Nat × String) := []
  aliases : List (String × String) := []
  located : List (String × String) := []
  cluster : Option (Nat × Nat) := none
  substituted : Nat := 0
  loops : Nat := 0
  hidden : List (List (String × Option Variable)) := []

inductive Flow
  | exit (status : Nat)
  | failed
  | leave (status : Nat)
  | breakLoops (count : Nat)
  | continueLoop (count : Nat)

abbrev Eval := ExceptT Flow (StateT Shell Action)

namespace Shell

def lookup (shell : Shell) (name : String) : Option Variable := shell.bindings.lookup name

def value? (shell : Shell) (name : String) : Option String :=
  (shell.lookup name).bind (·.value)

def setVariable (shell : Shell) (name : String) (new : Variable) : Shell :=
  { shell with
    bindings :=
      if shell.bindings.any (·.1 = name) then
        shell.bindings.map fun entry => if entry.1 = name then (name, new) else entry
      else shell.bindings ++ [(name, new)] }

def setValue (shell : Shell) (name value : String) : Shell :=
  let old := (shell.lookup name).getD { value := none }
  let exported := old.exported || shell.flags.contains 'a'
  shell.setVariable name { old with value := some value, exported }

def unset (shell : Shell) (name : String) : Shell :=
  { shell with bindings := shell.bindings.filter (·.1 ≠ name) }

def environment (shell : Shell) : Environment :=
  shell.bindings.filterMap fun (name, entry) =>
    if entry.exported then entry.value.map fun value => (name, value) else none

def separators (shell : Shell) : List Char :=
  ((shell.value? "IFS").getD " \t\n").toList

def hasFlag (shell : Shell) (letter : Char) : Bool := shell.flags.contains letter

def freeNumber (shell : Shell) : Nat :=
  let used := (shell.jobs.filter fun job => !job.waited).map (·.number)
  ((List.range (used.length + 1)).find? fun n => !used.contains (n + 1)).getD 0 + 1

def addJob (shell : Shell) (pid : Int) : Shell :=
  let number := shell.freeNumber
  let others := shell.jobs.filter (·.number ≠ number)
  { shell with background := some pid, jobs := others ++ [{ number, pid }] }

def noteEnd (shell : Shell) (pid : Int) (report : ChildReport) (waited : Bool) : Shell :=
  { shell with
    jobs := shell.jobs.map fun job =>
      if job.pid = pid then { job with report := some report, waited := job.waited || waited }
      else job }

end Shell

namespace Eval

def act {α : Type} (action : Action α) : Eval α :=
  ExceptT.mk fun shell => action.bind fun value => .done (.ok value, shell)

def setStatus (status : Nat) : Eval Unit := modify fun shell => { shell with status }

def write (descriptor : Descriptor) (text : String) : Eval Unit := do
  let _ ← act (writeAll descriptor text.toUTF8)

def warn (message : String) : Eval Unit := do
  let shell ← get
  let command := shell.command.elim "" (· ++ ": ")
  write standardError
    (shell.name ++ ": " ++ toString shell.line ++ ": " ++ command ++ message ++ "\n")

def mistakeStatus : Nat := 2

def fail {α : Type} (message : String) : Eval α := do
  warn message
  throw .failed

def checkWritable (name : String) : Eval Unit := do
  if ((← get).lookup name).any (·.readOnly) then fail (name ++ ": is read only")

def assign (name value : String) : Eval Unit := do
  checkWritable name
  modify fun shell => shell.setValue name value

end Eval

inductive Purpose
  | opening
  | creating
  | executing
deriving DecidableEq

def Purpose.message (purpose : Purpose) (errno : Errno) : String :=
  if errno = .noEntry || errno = .notDirectory then
    match purpose with
    | opening => "No such file"
    | creating => "Directory nonexistent"
    | executing => "not found"
  else Errno.systemText errno.number

end PipelineShell.Script
