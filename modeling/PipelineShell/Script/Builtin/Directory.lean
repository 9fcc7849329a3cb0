import PipelineShell.Script.Builtin.Basic
import PipelineShell.Utility.Files

namespace PipelineShell.Script.Builtin

open PipelineShell.Action Eval

def currentDirectory : Eval String := do
  return (← act (perform .currentDirectory)).toOption.getD ((← get).value? "PWD" |>.getD "")

def searchPaths (shell : Shell) (path : String) : List String :=
  let isLocal := path.startsWith "/" || path = "." || path = ".." || path.startsWith "./" ||
    path.startsWith "../"
  match shell.value? "CDPATH" with
  | some directories =>
    if isLocal || directories.isEmpty then [""] else directories.splitToList (· == ':') ++ [""]
  | none => [""]

def enter (path : String) : List String → Eval (Option Bool)
  | [] => return none
  | directory :: rest => do
    let target := if directory.isEmpty then path else directory ++ "/" ++ path
    match ← act (perform (.changeDirectory target)) with
    | .ok () => return some (!directory.isEmpty)
    | .error _ => enter path rest

def changeDirectory : Builtin := fun arguments => do
  let (_, operands) ← options ['L', 'P'] arguments
  let shell ← get
  let target := match operands with
    | [] => (shell.value? "HOME").getD ""
    | "-" :: _ => (shell.value? "OLDPWD").getD ""
    | path :: _ => path
  let before ← currentDirectory
  match ← enter (if target.isEmpty then "." else target) (searchPaths shell target) with
  | none => Eval.fail ("can't cd to " ++ target)
  | some elsewhere =>
    let after ← currentDirectory
    modify fun shell => (shell.setValue "OLDPWD" before).setValue "PWD" after
    if elsewhere || operands.head? = some "-" then write standardOutput (after ++ "\n")
    return 0

def printDirectory : Builtin := fun arguments => do
  let _ ← options ['L', 'P'] arguments
  writeOutput "pwd" ((← currentDirectory) ++ "\n").toUTF8 0

def permissionText (mask : Nat) : String :=
  let letters (shift : Nat) : String :=
    let bits := (0o777 ^^^ (mask &&& 0o777)) >>> shift
    (if bits &&& 4 = 0 then "" else "r") ++ (if bits &&& 2 = 0 then "" else "w") ++
      (if bits &&& 1 = 0 then "" else "x")
  "u=" ++ letters 6 ++ ",g=" ++ letters 3 ++ ",o=" ++ letters 0

def changed (shifts : List Nat) (operator : Char) (letters : List Char) (mode : Nat) : Nat :=
  let bits := letters.foldl (fun bits c => bits ||| match c with
    | 'r' => 4
    | 'w' => 2
    | 'x' => 1
    | 'X' => if mode &&& 0o111 = 0 then 0 else 1
    | 'u' => (mode >>> 6) &&& 7
    | 'g' => (mode >>> 3) &&& 7
    | 'o' => mode &&& 7
    | _ => 0) 0
  let selected := shifts.foldl (fun all shift => all ||| (bits <<< shift)) 0
  let everything := shifts.foldl (fun all shift => all ||| (7 <<< shift)) 0
  match operator with
  | '+' => mode ||| selected
  | '-' => mode &&& (0o777 ^^^ selected)
  | _ => (mode &&& (0o777 ^^^ everything)) ||| selected

def changes? (shifts : List Nat) (mode : Nat) (pending : Option (Char × List Char)) :
    List Char → Option Nat
  | [] => some (finish mode)
  | c :: rest =>
    if c ∈ ['+', '-', '='] then changes? shifts (finish mode) (some (c, [])) rest
    else
      match pending with
      | some (operator, letters) =>
        if c ∈ ['r', 'w', 'x', 'X', 's', 'u', 'g', 'o'] then
          changes? shifts mode (some (operator, c :: letters)) rest
        else none
      | none => none
where
  finish (mode : Nat) : Nat :=
    match pending with
    | some (operator, letters) => changed shifts operator letters mode
    | none => mode

def symbolicMode? (mode : Nat) : List String → Option Nat
  | [] => some mode
  | clause :: rest => do
    let who := clause.toList.takeWhile fun c => c ∈ ['u', 'g', 'o', 'a']
    let operators := clause.toList.drop who.length
    guard (!operators.isEmpty || rest.isEmpty)
    let shifts := [('u', 6), ('g', 3), ('o', 0)].filterMap fun (c, shift) =>
      if who.isEmpty || 'a' ∈ who || c ∈ who then some shift else none
    symbolicMode? (← changes? shifts mode none operators) rest

def umask : Builtin := fun arguments => do
  let (found, operands) ← options ['S'] arguments
  match operands with
  | [] =>
    let mask ← act (perform (.setMask 0))
    let _ ← act (perform (.setMask mask))
    let digits := Nat.toDigits 8 mask
    let octal := String.ofList (List.replicate (4 - digits.length) '0' ++ digits)
    let text := if found.isEmpty then octal else permissionText mask
    writeOutput "umask" (text ++ "\n").toUTF8 0
  | text :: _ =>
    let old ← act (perform (.setMask 0))
    let new := match Utility.octal? text with
      | some mask => some mask
      | none =>
        (symbolicMode? (0o777 ^^^ (old &&& 0o777)) (text.splitToList (· == ','))).map
          (0o777 ^^^ ·)
    let _ ← act (perform (.setMask (new.getD old)))
    if new.isSome then return 0
    let isNumber := text.toList.head?.any Char.isDigit
    Eval.fail ((if isNumber then "Illegal number: " else "Illegal mode: ") ++ text)

def limitLetters : List Char := ['t', 'f', 'd', 's', 'c', 'm', 'l', 'p', 'n', 'v', 'w', 'r']

def showLimit : Builtin := fun arguments => do
  let (found, operands) ← options (['H', 'S', 'a'] ++ limitLetters) arguments
  match operands with
  | [] =>
    let isCore := (found.filter fun (c, _) => c ∉ ['H', 'S']).getLast?.any (·.1 = 'c')
    writeOutput "ulimit" (if isCore then "0\n" else "unlimited\n").toUTF8 0
  | _ :: _ :: _ => Eval.fail "too many arguments"
  | [value] =>
    if value = "unlimited" || (count? value).isSome then return 0 else Eval.fail "bad number"

end PipelineShell.Script.Builtin
