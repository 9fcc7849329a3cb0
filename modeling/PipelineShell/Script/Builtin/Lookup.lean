import PipelineShell.Script.Builtin.Basic
import PipelineShell.Utility.Processes

namespace PipelineShell.Script.Builtin

open PipelineShell.Action Eval

def isExecutableFile (path : String) : Action Bool := do
  match ← perform (.fileInfo path true) with
  | .ok info =>
    if info.kind ≠ .regular then return false
    return (← perform (.canAccess path false false true)).isOk
  | .error _ => return false

def findIn (name : String) : List String → Action (Option String)
  | [] => return none
  | directory :: rest => do
    let path := if directory.isEmpty then name else directory ++ "/" ++ name
    if ← isExecutableFile path then return some path
    findIn name rest

def findProgram (name : String) : Eval (Option String) := do
  if name.contains '/' then
    return if ← act (isExecutableFile name) then some name else none
  let path := ((← get).value? "PATH").getD "/usr/local/bin:/usr/bin:/bin"
  act (findIn name (path.splitToList (· == ':')))

def locate (name : String) : Eval (Option String) := do
  let found ← findProgram name
  if let (some path, false) := (found, name.contains '/') then
    modify fun shell =>
      { shell with located := Utility.setVariable shell.located name path }
  return found

def special : List String := specialNames ++ ["local"]

def builtinNames : List String := special ++ [
  "true", "false", "echo", "printf", "test", "[", "read", "cd", "chdir", "pwd", "umask", "wait",
  "hash", "ulimit", "alias", "unalias", "jobs", "fg", "bg", "getopts", "command", "type", "kill"]

def isBuiltin (name : String) : Bool := builtinNames.contains name

def describe (name : String) (inShort : Bool) : Eval Nat := do
  let shell ← get
  let say (sentence short : String) : Eval Nat :=
    writeOutput "type" ((if inShort then short else name ++ sentence) ++ "\n").toUTF8 0
  if Reader.reserved.contains name then say " is a shell keyword" name
  else if let some value := shell.aliases.lookup name then
    say (" is an alias for " ++ value) ("alias " ++ name ++ "=" ++ quotedValue value)
  else if shell.functions.any (·.1 = name) then say " is a shell function" name
  else if special.contains name then say " is a special shell builtin" name
  else if isBuiltin name then say " is a shell builtin" name
  else if let some path := shell.located.lookup name then
    say (" is a tracked alias for " ++ path) path
  else
    match ← findProgram name with
    | some path => say (" is " ++ path) path
    | none =>
      if !inShort then write standardOutput (name ++ ": not found\n")
      return 127

def describeAll : List String → Nat → Eval Nat
  | [], status => return status
  | name :: rest, status => do
    let next ← describe name false
    describeAll rest (max status next)

def hash : Builtin := fun arguments => do
  let (found, names) ← options ['r'] arguments
  if !found.isEmpty then
    modify fun shell => { shell with located := [] }
    return 0
  if names.isEmpty then
    let lines := (← get).located.map fun (_, path) => path ++ "\n"
    writeOutput "hash" (String.join lines).toUTF8 0
  else
    let mut status := 0
    for name in names do
      let known := isBuiltin name || (← get).functions.any (·.1 = name)
      if !known then
        if (← locate name).isNone then
          warn (name ++ ": not found")
          status := 1
    return status

end PipelineShell.Script.Builtin
