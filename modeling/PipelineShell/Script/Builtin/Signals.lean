import PipelineShell.Script.Builtin.Jobs
import PipelineShell.Utility.Processes

namespace PipelineShell.Script.Builtin

open PipelineShell.Action Eval

def signalCount : Nat := 65

def signalName (number : Nat) : String :=
  if number = 0 then "EXIT"
  else if number = 16 || number = 32 || number = 33 then toString number
  else if number ≤ Signal.names.length then ((Signal.names.getD (number - 1) "").drop 3).toString
  else if number = 34 then "RTMIN"
  else if number < 50 then "RTMIN+" ++ toString (number - 34)
  else if number < 64 then "RTMAX-" ++ toString (64 - number)
  else "RTMAX"

def signalNumber? (text : String) (least : Nat) : Option Nat :=
  match text.toNat? with
  | some number => if number < signalCount then some number else none
  | none =>
    (List.range signalCount).find? fun number =>
      least ≤ number && signalName number = text.toUpper

/-! ## Sending -/

def killUsage : String :=
  "Usage: kill [-s sigspec | -signum | -sigspec] [pid | job]... or\nkill -l [exitstatus]"

def listSignals : List String → Eval Nat
  | [] => do
    let names := (List.range (signalCount - 1)).map fun i => signalName (i + 1) ++ "\n"
    writeOutput "kill" ("0\n" ++ String.join names).toUTF8 0
  | text :: _ => do
    let status ← count text
    let number := if 128 < status then status - 128 else status
    if 0 < number && number < signalCount then
      writeOutput "kill" (signalName number ++ "\n").toUTF8 0
    else Eval.fail ("invalid signal number or exit status: " ++ text)

def target (text : String) : Eval Int := do
  match text.toList with
  | '%' :: _ => return ((← findJob text).map (·.pid)).getD 0
  | '-' :: digits => return -((← count (String.ofList digits) : Nat) : Int)
  | _ => return ((← count text : Nat) : Int)

/-- Sends a signal to processes. One that the script itself traps is only noted; the result is the
status and the commands to run. -/
def sendEach (own : Int) (signal : Nat) : List String → Nat → List String →
    Eval (Nat × List String)
  | [], status, pending => return (status, pending)
  | text :: rest, status, pending => do
    let pid ← target text
    match (← get).traps.lookup signal with
    | some command =>
      if pid = own && signal ≠ 0 then
        sendEach own signal rest status
          (if command.isEmpty then pending else pending ++ [command])
      else send pid rest status pending
    | none => send pid rest status pending
where
  send (pid : Int) (rest : List String) (status : Nat) (pending : List String) :
      Eval (Nat × List String) := do
    match ← act (perform (.kill pid signal)) with
    | .ok () => sendEach own signal rest status pending
    | .error errno =>
      warn (Errno.systemText errno.number ++ "\n")
      sendEach own signal rest 1 pending

def kill (arguments : List String) : Eval (Nat × List String) := do
  let own := (← act (perform .processIds)).own
  let sendAll (signal : Nat) (targets : List String) : Eval (Nat × List String) := do
    if targets.isEmpty then Eval.fail killUsage
    sendEach own signal targets 0 []
  match arguments with
  | [] => Eval.fail killUsage
  | first :: rest =>
    if !first.startsWith "-" then sendAll 15 arguments
    else
      match signalNumber? (first.drop 1).toString 1 with
      | some signal => sendAll signal rest
      | none =>
        let (found, operands) ← options ['l'] arguments ['s']
        if found.any (·.1 = 'l') then return (← listSignals operands, [])
        match found.getLast? with
        | none => sendAll 15 operands
        | some (_, text) =>
          match signalNumber? text 1 with
          | some signal => sendAll signal operands
          | none => Eval.fail ("invalid signal number or name: " ++ text)

/-! ## Traps -/

def setTraps (command : Option String) : List String → Eval Nat
  | [] => return 0
  | text :: rest => do
    match signalNumber? text 0 with
    | none =>
      write standardError ("trap: " ++ text ++ ": bad trap\n")
      return 1
    | some number =>
      modify fun shell =>
        let others := shell.traps.filter (·.1 ≠ number)
        { shell with traps := others ++ command.toList.map fun command => (number, command) }
      if number ≠ 0 then
        let _ ← act (perform (.setSignal number (command = some "")))
      setTraps command rest

def trap : Builtin := fun arguments => do
  let (_, operands) ← options [] arguments
  match operands with
  | [] =>
    let traps := (← get).traps.mergeSort fun a b => a.1 ≤ b.1
    let lines := traps.map fun (number, command) =>
      "trap -- " ++ quotedValue command ++ " " ++ signalName number ++ "\n"
    writeOutput "trap" (String.join lines).toUTF8 0
  | [name] => setTraps none [name]
  | command :: names =>
    if (command.toNat?.filter (· < signalCount)).isSome then setTraps none operands
    else setTraps (if command = "-" then none else some command) names

end PipelineShell.Script.Builtin
