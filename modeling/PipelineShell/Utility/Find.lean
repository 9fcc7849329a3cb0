import PipelineShell.Text.Glob
import PipelineShell.Utility.Files
import PipelineShell.Utility.Processes

namespace PipelineShell.Utility

open PipelineShell.Action Host

namespace Find

inductive Condition
  | holds
  | fails
  | name (pattern : Field)
  | path (pattern : Field)
  | kind (kind : FileKind)
  | empty
  | print (ending : String)
  | delete
  | prune
  | run (words : List String)
  | both (first second : Condition)
  | either (first second : Condition)
  | negation (inner : Condition)

structure Options where
  least : Nat := 0
  most : Option Nat := none
  contentsFirst : Bool := false

abbrev Reader := StateT (List String × Options) (Except String)

def words : Reader (List String) := return (← get).1

def setWords (words : List String) : Reader Unit := modify fun (_, options) => (words, options)

def setOptions (change : Options → Options) : Reader Unit :=
  modify fun (words, options) => (words, change options)

def value (word : String) : Reader String := do
  match ← words with
  | value :: rest =>
    setWords rest
    return value
  | [] => throw ("missing argument to `" ++ word ++ "'")

def count (word : String) : Reader Nat := do
  let text ← value word
  match text.toNat? with
  | some n => return n
  | none => throw ("Expected a positive decimal integer argument to " ++ word ++ ", but got " ++
      quoted text)

def pattern (word : String) : Reader Field := return Field.ofText true (← value word).toList

def command (word : String) : Reader (List String) := do
  let rest ← words
  let inside := rest.takeWhile (· ≠ ";")
  if inside.length = rest.length || inside.isEmpty then
    throw ("missing argument to `" ++ word ++ "'")
  setWords (rest.drop (inside.length + 1))
  return inside

def kindOf (text : String) : Reader Condition := do
  match text with
  | "f" => return .kind .regular
  | "d" => return .kind .directory
  | "l" => return .kind .link
  | "p" => return .kind .pipe
  | "b" | "s" => return .fails
  | "c" => return .kind .device
  | _ => throw ("Unknown argument to -type: " ++ text)

def primary (word : String) : Reader Condition := do
  match word with
  | "-name" => return .name (← pattern word)
  | "-path" | "-wholename" => return .path (← pattern word)
  | "-type" => kindOf (← value word)
  | "-empty" => return .empty
  | "-true" => return .holds
  | "-false" => return .fails
  | "-print" => return .print "\n"
  | "-print0" => return .print "\x00"
  | "-prune" => return .prune
  | "-delete" =>
    setOptions fun options => { options with contentsFirst := true }
    return .delete
  | "-depth" =>
    setOptions fun options => { options with contentsFirst := true }
    return .holds
  | "-maxdepth" =>
    let most ← count word
    setOptions fun options => { options with most := some most }
    return .holds
  | "-mindepth" =>
    let least ← count word
    setOptions fun options => { options with least }
    return .holds
  | "-exec" => return .run (← command word)
  | _ =>
    if word.startsWith "-" then throw ("unknown predicate `" ++ word ++ "'")
    else throw ("paths must precede expression: `" ++ word ++ "'")

mutual

def readAlternatives (bound : Nat) : Reader Condition := do
  match bound with
  | 0 => throw "invalid expression"
  | bound + 1 =>
    let first ← readSequence bound
    match ← words with
    | "-o" :: rest | "-or" :: rest =>
      setWords rest
      return .either first (← readAlternatives bound)
    | _ => return first

def readSequence (bound : Nat) : Reader Condition := do
  match bound with
  | 0 => throw "invalid expression"
  | bound + 1 =>
    let first ← readSingle bound
    match ← words with
    | [] | ")" :: _ | "-o" :: _ | "-or" :: _ => return first
    | "-a" :: rest | "-and" :: rest =>
      setWords rest
      return .both first (← readSequence bound)
    | _ => return .both first (← readSequence bound)

def readSingle (bound : Nat) : Reader Condition := do
  match bound with
  | 0 => throw "invalid expression"
  | bound + 1 =>
    match ← words with
    | [] => throw "invalid expression; expected an operand"
    | "!" :: rest | "-not" :: rest =>
      setWords rest
      return .negation (← readSingle bound)
    | "(" :: rest =>
      setWords rest
      let inner ← readAlternatives bound
      match ← words with
      | ")" :: rest =>
        setWords rest
        return inner
      | _ =>
        throw "invalid expression; I was expecting to find a ')' somewhere but did not see one."
    | word :: rest =>
      setWords rest
      primary word

end

def Condition.hasEffect : Condition → Bool
  | print _ | delete | run _ => true
  | both a b | either a b => a.hasEffect || b.hasEffect
  | negation inner => inner.hasEffect
  | holds | fails | name _ | path _ | kind _ | empty | prune => false

def readCondition (words : List String) : Except String (Condition × Options) := do
  if words.isEmpty then return (.print "\n", {})
  let (condition, rest, options) ← (readAlternatives (4 * words.length + 4)).run (words, {})
  match rest with
  | [] =>
    return (if condition.hasEffect then condition else .both condition (.print "\n"), options)
  | word :: _ => throw ("paths must precede expression: `" ++ word ++ "'")

structure Verdict where
  holds : Bool
  pruned : Bool := false
  status : Nat := 0

def isEmptyFile (path : String) (info : FileInfo) : Action Bool := do
  match info.kind with
  | .regular => return info.size = 0
  | .directory => return (← perform (.listDirectory path)).toOption.any (·.isEmpty)
  | _ => return false

def Condition.check (name path : String) (info : FileInfo) : Condition → Action Verdict
  | .holds => return { holds := true }
  | .fails => return { holds := false }
  | .name pattern => return { holds := pattern.fits (lastName path).toList }
  | .path pattern => return { holds := pattern.fits path.toList }
  | .kind wanted => return { holds := info.kind = wanted }
  | .empty => return { holds := ← isEmptyFile path info }
  | .print ending => return { holds := ← putText (path ++ ending) }
  | .delete => do
    let removed ←
      if info.kind = .directory then perform (.removeDirectory path)
      else perform (.removeFile path)
    match removed with
    | .ok () => return { holds := true }
    | .error errno =>
      complain name ("cannot delete " ++ quoted path ++ ": " ++ errorText errno)
      return { holds := false, status := 1 }
  | .prune => return { holds := true, pruned := true }
  | .run words => do
    let report ← runChild name (words.map fun word => word.replace "\x7b\x7d" path)
    return { holds := report = .exited 0 }
  | .both a b => do
    let first ← check name path info a
    if !first.holds then return first
    let second ← check name path info b
    return ⟨second.holds, first.pruned || second.pruned, max first.status second.status⟩
  | .either a b => do
    let first ← check name path info a
    if first.holds then return first
    let second ← check name path info b
    return ⟨second.holds, first.pruned || second.pruned, max first.status second.status⟩
  | .negation inner => do
    let verdict ← check name path info inner
    return { verdict with holds := !verdict.holds }

mutual

def walk (name : String) (condition : Condition) (options : Options) (bound level : Nat)
    (path : String) : Action Nat := do
  match bound with
  | 0 => return 1
  | bound + 1 =>
    match ← perform (.fileInfo path false) with
    | .error errno =>
      complain name (quoted path ++ ": " ++ errorText errno)
      return 1
    | .ok info =>
      let check : Action Verdict :=
        if level < options.least then return { holds := false }
        else condition.check name path info
      let descend : Action Nat := do
        if info.kind ≠ .directory || options.most.any (· ≤ level) then return 0
        match ← perform (.listDirectory path) with
        | .error errno =>
          complain name (quoted path ++ ": " ++ errorText errno)
          return 1
        | .ok names =>
          let lead := if path.endsWith "/" then path else path ++ "/"
          walkEach name condition options bound (level + 1) 0 (names.map (lead ++ ·))
      if options.contentsFirst then
        let status ← descend
        return max status (← check).status
      else
        let verdict ← check
        if verdict.pruned then return verdict.status
        return max verdict.status (← descend)
termination_by (bound, 0)

def walkEach (name : String) (condition : Condition) (options : Options)
    (bound level status : Nat) (paths : List String) : Action Nat := do
  match paths with
  | [] => return status
  | path :: rest =>
    let next ← walk name condition options bound level path
    walkEach name condition options bound level (max status next) rest
termination_by (bound, paths.length + 1)

end

def beginsCondition (word : String) : Bool :=
  (word.startsWith "-" && word ≠ "-") || word = "(" || word = ")" || word = "!"

end Find

def find : Program := fun invocation => do
  let arguments := invocation.arguments.dropWhile fun word => word ∈ ["-H", "-L", "-P"]
  let paths := arguments.takeWhile (!Find.beginsCondition ·)
  match Find.readCondition (arguments.drop paths.length) with
  | .error message =>
    complain invocation.name message
    return 1
  | .ok (condition, options) =>
    Find.walkEach invocation.name condition options treeDepth 0 0
      (if paths.isEmpty then ["."] else paths)

end PipelineShell.Utility
