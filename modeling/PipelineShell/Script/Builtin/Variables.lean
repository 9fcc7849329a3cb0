import PipelineShell.Script.Builtin.Basic
import PipelineShell.Utility.Processes

namespace PipelineShell.Script.Builtin

open PipelineShell.Action Eval

/-! ## Variables -/

def listVariables (command : String) (wanted : Variable → Bool) : Eval Nat := do
  let entries := (← get).bindings.filter fun (_, entry) => wanted entry
  let entries := entries.mergeSort fun a b => a.1 ≤ b.1
  let lines := entries.map fun (name, entry) =>
    command ++ name ++ (entry.value.elim "" fun value => "=" ++ quotedValue value) ++ "\n"
  writeOutput "set" (String.join lines).toUTF8 0

def checkName (name : String) : Eval Unit := do
  if !isName name then Eval.fail (name ++ ": bad variable name")

def mark (change : Variable → Variable) : List String → Eval Nat
  | [] => return 0
  | argument :: rest => do
    let assignment := Utility.assignment? argument
    let name := (assignment.map (·.1)).getD argument
    checkName name
    if let some (_, value) := assignment then assign name value
    modify fun shell =>
      shell.setVariable name (change ((shell.lookup name).getD { value := none }))
    mark change rest

def markOrList (name : String) (holds : Variable → Bool) (change : Variable → Variable) :
    Builtin := fun arguments => do
  let (found, operands) ← options ['p'] arguments
  if operands.isEmpty || !found.isEmpty then listVariables (name ++ " ") holds
  else mark change operands

def exportNames : Builtin :=
  markOrList "export" (·.exported) fun entry => { entry with exported := true }

def readOnly : Builtin :=
  markOrList "readonly" (·.readOnly) fun entry => { entry with readOnly := true }

def unset : Builtin := fun arguments => do
  let (found, names) ← options ['v', 'f'] arguments
  if (found.getLast?.map (·.1)) = some 'f' then
    modify fun shell =>
      { shell with functions := shell.functions.filter fun (name, _) => !names.contains name }
    return 0
  for name in names do
    checkName name
    if ((← get).lookup name).any (·.readOnly) then Eval.fail (name ++ ": is read only")
    modify (·.unset name)
  return 0

def makeLocal : Builtin := fun arguments => do
  match (← get).hidden with
  | [] => Eval.fail "not in a function"
  | frame :: frames =>
    let names := arguments.map fun argument =>
      ((Utility.assignment? argument).map (·.1)).getD argument
    for name in names do checkName name
    let shell ← get
    let saved := names.map fun name => (name, shell.lookup name)
    set { shell with hidden := (saved ++ frame) :: frames }
    for argument in arguments do
      if let some (name, value) := Utility.assignment? argument then assign name value
    return 0

/-! ## Options -/

def optionNames : List (String × Char) := [
  ("errexit", 'e'), ("noglob", 'f'), ("ignoreeof", 'I'), ("interactive", 'i'), ("monitor", 'm'),
  ("noexec", 'n'), ("stdin", 's'), ("xtrace", 'x'), ("verbose", 'v'), ("vi", 'V'), ("emacs", 'E'),
  ("noclobber", 'C'), ("allexport", 'a'), ("notify", 'b'), ("nounset", 'u'), ("privileged", 'p')]

def idleOptions : List String := ["nolog", "debug"]

def optionLetters : List Char := optionNames.map (·.2)

def switch (on : Bool) (letter : Char) (flags : List Char) : List Char :=
  let others := flags.filter (· ≠ letter)
  if on then others ++ [letter] else others

def switchLetter (on : Bool) (letter : Char) (flags : List Char) : List Char :=
  let flags := match on, letter with
    | true, 'E' => flags.filter (· ≠ 'V')
    | true, 'V' => flags.filter (· ≠ 'E')
    | _, _ => flags
  switch on letter flags

def refuseJobControl : Eval Unit := do
  if (← get).hasFlag 'm' then
    modify fun shell => { shell with flags := switch false 'm' shell.flags }
    warn "can't access tty; job control turned off"

def listOptions (asCommands : Bool) : Eval Nat := do
  let shell ← get
  let states := optionNames.map (fun (name, letter) => (name, shell.hasFlag letter)) ++
    idleOptions.map (·, false)
  let line (name : String) (on : Bool) : String :=
    if asCommands then "set " ++ (if on then "-" else "+") ++ "o " ++ name ++ "\n"
    else
      name ++ String.ofList (List.replicate (16 - name.length) ' ') ++
        (if on then "on" else "off") ++ "\n"
  let heading := if asCommands then "" else "Current option settings\n"
  writeOutput "set" (heading ++ String.join (states.map fun (name, on) => line name on)).toUTF8 0

def setPositional (arguments : List String) : Eval Nat := do
  modify fun shell => { shell with positional := arguments, cluster := none }
  return 0

def setOptions (bound : Nat) (arguments : List String) : Eval Nat := do
  match bound with
  | 0 => return 0
  | bound + 1 =>
    match arguments with
    | [] => return 0
    | "--" :: rest => setPositional rest
    | argument :: rest =>
      match argument.toList with
      | [sign] =>
        if sign = '-' || sign = '+' then if rest.isEmpty then return 0 else setPositional rest
        else setPositional arguments
      | sign :: letters =>
        if sign = '-' || sign = '+' then
          let on := sign = '-'
          match letters, rest with
          | ['o'], [] => listOptions (!on)
          | ['o'], name :: rest =>
            match optionNames.lookup name with
            | some letter =>
              modify fun shell => { shell with flags := switch on letter shell.flags }
              setOptions bound rest
            | none => Eval.fail ("Illegal option -o " ++ name)
          | _, _ =>
            match letters.find? fun c => !optionLetters.contains c with
            | some c => Eval.fail ("Illegal option " ++ String.ofList [sign, c])
            | none =>
              modify fun shell =>
                { shell with
                    flags := letters.foldl (fun flags c => switchLetter on c flags) shell.flags }
              setOptions bound rest
        else setPositional arguments
      | [] => setPositional arguments

def setAll : Builtin := fun arguments =>
  if arguments.isEmpty then listVariables "" (·.value.isSome)
  else do
    let status ← setOptions (arguments.length + 1) arguments
    refuseJobControl
    return status

/-! ## Options of the script itself -/

/-- Where the next option is looked for: an argument, counted from one, and what is left of the
cluster of letters there. -/
def nextCluster (shell : Shell) (arguments : List String) : Nat × List Char :=
  let index := (((shell.value? "OPTIND").bind count?).getD 1).max 1
  let inside := match shell.cluster with
    | some (place, taken) =>
      if place = index then ((arguments.getD (index - 2) "").toList).drop taken else []
    | none => []
  (index, inside)

def nextOption (letters : List Char) (name : String) (arguments : List String) : Eval Nat := do
  let (index, inside) := nextCluster (← get) arguments
  let finish (index : Nat) (cluster : Option (Nat × Nat)) (c : Char) (status : Nat) :
      Eval Nat := do
    modify fun shell => { (shell.setValue "OPTIND" (toString index)) with cluster }
    checkName name
    assign name c.toString
    return status
  let taken (left : List Char) (index : Nat) : Option (Nat × Nat) :=
    if left.isEmpty then none
    else some (index, (arguments.getD (index - 2) "").length - left.length)
  let next : Option (Nat × Char × List Char) :=
    match inside with
    | c :: more => some (index, c, more)
    | [] =>
      match (arguments.getD (index - 1) "").toList with
      | '-' :: c :: more => if c = '-' && more.isEmpty then none else some (index + 1, c, more)
      | _ => none
  match next with
  | none =>
    let skips := inside.isEmpty && arguments[index - 1]? = some "--"
    finish (if skips then index + 1 else index) none '?' 1
  | some (index, c, more) =>
    let quiet := letters.head? = some ':'
    match letters.dropWhile (· ≠ c) with
    | [] =>
      if quiet then assign "OPTARG" c.toString
      else
        write standardError ("Illegal option -" ++ c.toString ++ "\n")
        modify (·.unset "OPTARG")
      finish index (taken more index) '?' 0
    | _ :: ':' :: _ =>
      match more, arguments[index - 1]? with
      | [], none =>
        if quiet then
          assign "OPTARG" c.toString
          finish index none ':' 0
        else
          write standardError ("No arg for -" ++ c.toString ++ " option\n")
          modify (·.unset "OPTARG")
          finish index none '?' 0
      | [], some value =>
        assign "OPTARG" value
        finish (index + 1) none c 0
      | _, _ =>
        assign "OPTARG" (String.ofList more)
        finish index none c 0
    | _ =>
      assign "OPTARG" ""
      finish index (taken more index) c 0

def getOptions : Builtin := fun arguments => do
  match arguments with
  | letters :: name :: rest =>
    let positional := (← get).positional
    nextOption letters.toList name (if rest.isEmpty then positional else rest)
  | _ => Eval.fail "Usage: getopts optstring var [arg]"

/-! ## Aliases -/

def setAliases : Builtin := fun arguments => do
  if arguments.isEmpty then
    let lines := (← get).aliases.map fun (name, value) => name ++ "=" ++ quotedValue value ++ "\n"
    writeOutput "alias" (String.join lines).toUTF8 0
  else
    let mut status := 0
    for argument in arguments do
      match Utility.assignment? argument with
      | some (name, value) =>
        modify fun shell =>
          { shell with aliases := Utility.setVariable shell.aliases name value }
      | none =>
        match (← get).aliases.lookup argument with
        | some value => write standardOutput (argument ++ "=" ++ quotedValue value ++ "\n")
        | none =>
          write standardError ("alias: " ++ argument ++ " not found\n")
          status := 1
    return status

def removeAliases : Builtin := fun arguments => do
  let (found, names) ← options ['a'] arguments
  if !found.isEmpty then
    modify fun shell => { shell with aliases := [] }
    return 0
  let mut status := 0
  for name in names do
    if ((← get).aliases.lookup name).isNone then
      write standardError ("unalias: " ++ name ++ " not found\n")
      status := 1
    modify fun shell => { shell with aliases := shell.aliases.filter (·.1 ≠ name) }
  return status

end PipelineShell.Script.Builtin
