import PipelineShell.Host.Process
import PipelineShell.Script.Evaluate

namespace PipelineShell.Script

open PipelineShell.Action Eval Host

structure Request where
  flags : List Char := []
  fromArgument : Bool := false
  fromInput : Bool := false
  operands : List String := []

inductive RequestError
  | illegalOption (text : String)

def readRequest (request : Request) : List String → Except RequestError Request
  | [] => .ok request
  | "--" :: rest | "-" :: rest => .ok { request with operands := rest }
  | ["-o"] => .ok request
  | "-o" :: name :: rest =>
    match Builtin.optionNames.lookup name with
    | some letter =>
      readRequest { request with flags := Builtin.switch true letter request.flags } rest
    | none => .error (.illegalOption ("-o " ++ name))
  | argument :: rest =>
    match argument.toList with
    | sign :: letter :: letters =>
      if sign = '-' || sign = '+' then
        match (letter :: letters).find? fun c =>
          !(Builtin.optionLetters.contains c || c = 'c' || c = 'l') with
        | some c => .error (.illegalOption (String.ofList [sign, c]))
        | none =>
          let flags := (letter :: letters).foldl (fun flags c =>
            if Builtin.optionLetters.contains c then Builtin.switch (sign = '-') c flags else flags)
            request.flags
          readRequest { request with
            flags
            fromArgument := request.fromArgument || 'c' ∈ letter :: letters
            fromInput := request.fromInput || 's' ∈ letter :: letters } rest
      else .ok { request with operands := argument :: rest }
    | _ => .ok { request with operands := argument :: rest }

def begin (invocation : Invocation) (flags : List Char) : Action Shell := do
  let ids ← perform .processIds
  let directory ← perform .currentDirectory
  let inherited := invocation.environment.filter fun (name, _) => Builtin.isName name
  let bindings := inherited.map fun (name, value) =>
    (name, ({ value := some value, exported := true } : Variable))
  let shell : Shell :=
    { name := invocation.name, pid := ids.own, parent := ids.parent, bindings, flags }
  let shell := (shell.setValue "PPID" (toString ids.parent)).setValue "OPTIND" "1"
  let shell := (shell.setValue "IFS" " \t\n").setValue "PS1" "# "
  let shell := (shell.setValue "PS2" "> ").setValue "PS4" "+ "
  return match directory with
    | .ok path => shell.setVariable "PWD" { value := some path, exported := true }
    | .error _ => shell

def limit : Nat := 0x4000000000000000

def runToEnd (manner : Manner) (source : Source) : Eval Nat := do
  Builtin.refuseJobControl
  let result ← Evaluate.attempt (Evaluate.runSource limit manner source)
  Evaluate.finish limit result

def runWith (shell : Shell) (body : Eval Nat) : Action Nat := do
  match ← body.run.run shell with
  | (.ok status, _) => return status
  | (.error flow, shell) => return Evaluate.finalStatus shell (.error flow)

def openScript (path : String) : Action (Except Errno Descriptor) := do
  match ← perform (.openFile path { read := true }) with
  | .error errno => return .error errno
  | .ok opened =>
    match ← perform (.duplicateFrom opened Redirect.firstCopy) with
    | .ok copy =>
      closeAll [opened]
      return .ok copy
    | .error _ => return .ok opened

def runRequest (request : Request) (shell : Shell) : Action Nat :=
  if request.fromArgument then
    match request.operands with
    | [] => runWith shell (Eval.fail "-c requires an argument")
    | text :: rest =>
      let shell := { shell with name := rest.headD shell.name, positional := rest.drop 1 }
      runWith shell (runToEnd { isLast := true } (Source.ofText text))
  else
    match request.operands with
    | path :: rest =>
      if request.fromInput then fromInput { shell with positional := path :: rest }
      else do
        match ← openScript path with
        | .ok descriptor =>
          runWith { shell with name := path, positional := rest }
            (runToEnd {} (Source.ofDescriptor descriptor))
        | .error errno =>
          runWith shell (Eval.warn ("cannot open " ++ path ++ ": " ++
            Purpose.message .opening errno) *> return Eval.mistakeStatus)
    | [] => fromInput shell
where
  fromInput (shell : Shell) : Action Nat :=
    runWith { shell with flags := Builtin.switch true 's' shell.flags }
      (runToEnd {} (Source.ofDescriptor standardInput))

def program : Program := fun invocation => do
  match readRequest {} invocation.arguments with
  | .error (.illegalOption text) =>
    let shell ← begin invocation []
    runWith shell (Eval.warn ("Illegal option " ++ text) *> return Eval.mistakeStatus)
  | .ok request =>
    let shell ← begin invocation request.flags
    runRequest request shell

end PipelineShell.Script
