import PipelineShell.Interpreter.Input
import PipelineShell.Line.Parse
import PipelineShell.Line.Run

/-!
# The interpreter

The interpreter takes one line after the other, from a script or from a terminal, and keeps the
background jobs and the status of the last line from one to the next. Nothing else of a line
outlives it.
-/

namespace PipelineShell

open PipelineShell.Action

structure Interpreter where
  settings : Settings := {}
  user : String
  line : Line := {}
  jobs : JobTable := {}
  lastStatus : Nat := 0

def syntaxErrorStatus : Nat := 2

namespace Interpreter

/-- Reads and runs one line, which takes the place of the line before. A line that cannot be read
is not kept. The answer is false once a line has asked to leave. -/
def execute (interpreter : Interpreter) (text : Word) : Action (Interpreter × Bool) := do
  let reading := interpreter.line.startNew.parse text
  match reading.error? with
  | some error =>
    interpreter.settings.console.error ("syntax error: " ++ error.message)
    return ({ interpreter with line := reading.line.startNew, lastStatus := syntaxErrorStatus },
      true)
  | none =>
    let line := reading.line
    interpreter.settings.console.log
      ("parsed " ++ toString line.statements.length ++ " statement(s)")
    if line.statements.isEmpty then return ({ interpreter with line }, !line.flags.exit)
    let (status, line, jobs) ← line.run interpreter.settings interpreter.jobs
    return ({ interpreter with line, jobs, lastStatus := status }, !line.flags.exit)

def endText (pid : Int) : WaitStatus → String
  | .exited code => "Exited(Pid(" ++ toString pid ++ "), " ++ toString code ++ ")"
  | .signaled signal => "Signaled(Pid(" ++ toString pid ++ "), " ++ signal.name ++ ", false)"
  | .stillAlive => "StillAlive"

def reportJobs (console : Console) : List (Job × WaitStatus) → Action Unit
  | [] => return
  | (job, status) :: rest => do
    console.log ("job " ++ toString job.id ++ " (" ++ toString job.pid ++ ") ended with " ++
      endText job.pid status)
    Console.print ("[" ++ toString job.id ++ "] Done " ++ job.command.toString ++ "\n")
    reportJobs console rest

def reportFinishedJobs (interpreter : Interpreter) : Action Interpreter := do
  let (left, jobs) ← interpreter.jobs.reap interpreter.settings.console
  reportJobs interpreter.settings.console left
  return { interpreter with jobs }

def prompt (interpreter : Interpreter) (directory : String) : String :=
  let console := interpreter.settings.console
  let status :=
    if interpreter.lastStatus = 0 then ""
    else console.styled .red (" [" ++ toString interpreter.lastStatus ++ "]")
  console.styled .boldGreen interpreter.user ++ ":" ++ console.styled .blue directory ++ status ++
    " $ "

/-- A prompt that stays in the buffer is written with what follows it. -/
def writePrompt (interpreter : Interpreter) : Action Unit := do
  let directory ← perform .currentDirectory
  Console.print (interpreter.prompt (directory.toOption.getD "?"))
  let _ ← perform .flush

inductive Source
  | script
  | terminal (buffer : List UInt8)

namespace Source

def isInteractive : Source → Bool
  | script => false
  | terminal _ => true

def nextLine (turns : Nat) : Source → Action (Except FileError (Option Word) × Source)
  | script => do return (← Input.scriptLine turns, script)
  | terminal buffer => do
    let (line, buffer) ← Input.terminalLine turns buffer
    return (line, terminal buffer)

end Source

def turn (turns : Nat) (state : Interpreter × Source) :
    Action (Turn (Interpreter × Source) Interpreter) := do
  let (interpreter, source) := state
  let interpreter ← interpreter.reportFinishedJobs
  if source.isInteractive then interpreter.writePrompt
  match ← source.nextLine turns with
  | (.error error, _) =>
    interpreter.settings.console.error ("error reading input: " ++ error.message)
    return .leave interpreter
  | (.ok none, _) => return .leave interpreter
  | (.ok (some text), source) =>
    let (interpreter, goesOn) ← interpreter.execute text
    return if goesOn then .again (interpreter, source) else .leave interpreter

/-- Reads and runs lines until the end of the input or until one asks to leave. Neither the lines
nor the reads for one line may be more than `turns`. -/
def runFor (turns : Nat) (interpreter : Interpreter) : Action Interpreter := do
  match ← perform (.setSignal Signal.interrupt.number true) with
  | .ok () => pure ()
  | .error errno =>
    interpreter.settings.console.error ("cannot ignore SIGINT: " ++ errno.text)
  let interactive ← perform (.isTerminal standardInput)
  let source := if interactive.toOption.getD false then Source.terminal [] else Source.script
  loop (turn turns) turns (interpreter, source)

def run (interpreter : Interpreter) : Action Interpreter := interpreter.runFor patience

end Interpreter

end PipelineShell
