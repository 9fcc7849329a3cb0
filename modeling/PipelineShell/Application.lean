import PipelineShell.CommandLine.Messages
import PipelineShell.Interpreter

/-!
# The application

What the program does from its arguments to its exit status: it reads the command line and then
runs either the one line given there or what it reads from standard input.
-/

namespace PipelineShell

open PipelineShell.Action

namespace Application

def durationText (nanoseconds : Nat) : String :=
  let inUnit (scale : Nat) (unit : String) : String :=
    let fraction := nanoseconds % scale
    let width := (toString scale).length - 1
    let digits := toString fraction
    let padded := List.replicate (width - digits.length) '0' ++ digits.toList
    let places := (padded.reverse.dropWhile (· = '0')).reverse
    toString (nanoseconds / scale) ++
      (if places.isEmpty then "" else "." ++ String.ofList places) ++ unit
  if nanoseconds < 1000 then toString nanoseconds ++ "ns"
  else if nanoseconds < 1000000 then inUnit 1000 "µs"
  else if nanoseconds < 1000000000 then inUnit 1000000 "ms"
  else inUnit 1000000000 "s"

/-- Says what is wrong with the command line, or what was asked for. Whether that can be written
makes no difference. -/
def explain (error : CommandLine.UsageError) (environment : Environment) : Action Nat := do
  let message := error.message environment
  if error.isMistake then
    let _ ← writeAll standardError message.toUTF8
  else
    let _ ← perform (.print message)
    let _ ← perform .flush
  return error.exitStatus

def runWith (options : CommandLine.Options) (environment : Environment) (user : String) :
    Action Nat := do
  let settings := options.settings (Console.colorsForced environment)
  let started ← perform .clock
  let interpreter : Interpreter := { settings, user }
  let ready ← perform .clock
  settings.console.log ("startup took " ++ durationText (ready - started))
  match options.command with
  | some text => return (← interpreter.execute text).1.lastStatus
  | none => return (← interpreter.run).lastStatus

def run (arguments : List (List UInt8)) (environment : Environment) (user : String) :
    Action Nat :=
  match CommandLine.parse arguments environment with
  | .ok options => runWith options environment user
  | .error error => explain error environment

end Application

end PipelineShell
