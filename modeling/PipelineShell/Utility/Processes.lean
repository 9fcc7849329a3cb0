import PipelineShell.Utility.Output

namespace PipelineShell.Utility

open PipelineShell.Action Host

def startFailure (errno : Errno) : Nat := if errno = .noEntry then 127 else 126

def becomeProgram (name : String) (words : List String) : Action Nat := do
  let program := words.headD ""
  let errno ← perform (.exec program words)
  complain name (quoted program ++ ": " ++ errorText errno)
  return startFailure errno

/-! ## Environments -/

def setVariable (environment : Environment) (name value : String) : Environment :=
  if environment.any (·.1 = name) then
    environment.map fun entry => if entry.1 = name then (name, value) else entry
  else environment ++ [(name, value)]

def assignment? (text : String) : Option (String × String) :=
  let name := text.toList.takeWhile (· ≠ '=')
  match text.toList.drop name.length with
  | _ :: value => some (String.ofList name, String.ofList value)
  | [] => none

def applyAssignments (environment : Environment) : List String → Environment × List String
  | [] => (environment, [])
  | word :: rest =>
    match assignment? word with
    | some (name, value) => applyAssignments (setVariable environment name value) rest
    | none => (environment, word :: rest)

def env : Program := fun invocation =>
  withOptions invocation
    { flags := ['i', '0', 'v'], values := ['u', 'C', 'S'], permutes := false
      long := [("ignore-environment", 'i'), ("unset", 'u'), ("chdir", 'C'), ("null", '0')] }
    (fun parsed => do
      let lone := parsed.operands.head? = some "-"
      let operands := if lone then parsed.operands.drop 1 else parsed.operands
      let base := if parsed.has 'i' || lone then [] else invocation.environment
      let unset := (parsed.options.filter (·.1 = 'u')).map (·.2)
      let base := base.filter fun (name, _) => !unset.contains name
      let (environment, words) := applyAssignments base operands
      if words.isEmpty then
        outputOr invocation.name
          (String.join (environment.map fun (name, value) => name ++ "=" ++ value ++ "\n")).toUTF8 0
      else
        let _ ← perform (.setEnvironment environment)
        becomeProgram invocation.name words)
    125

def printenv : Program := fun invocation => do
  if invocation.arguments.isEmpty then
    outputOr invocation.name (String.join (invocation.environment.map fun (name, value) =>
      name ++ "=" ++ value ++ "\n")).toUTF8 0
  else
    let values := invocation.arguments.map fun name => invocation.environment.lookup name
    let status := if values.any Option.isNone then 1 else 0
    outputOr invocation.name
      (String.join (values.filterMap fun value => value.map (· ++ "\n"))).toUTF8 status

/-! ## Signals -/

def signalNumber? (text : String) : Option Nat :=
  match integer? text with
  | some value => if 0 ≤ value then some value.toNat else none
  | none =>
    let upper := text.toUpper
    let full := if upper.startsWith "SIG" then upper else "SIG" ++ upper
    if upper = "EXIT" then some 0
    else if full = "SIGCLD" then some 17
    else if full = "SIGPOLL" then some 29
    else (Signal.names.findIdx? (· == full)).map (· + 1)

def kill : Program := fun invocation => do
  let send (signal : Nat) (pids : List String) : Action Nat :=
    each invocation.name signal 0 pids
  match invocation.arguments with
  | [] =>
    complain invocation.name "not enough arguments"
    return 1
  | "-l" :: _ =>
    let names := Signal.names.map fun name => (name.drop 3).toString
    outputOr invocation.name (" ".intercalate names ++ "\n").toUTF8 0
  | "-s" :: text :: pids | "--signal" :: text :: pids =>
    match signalNumber? text with
    | some signal => send signal pids
    | none => unknown invocation.name text
  | "--" :: pids => send 15 pids
  | first :: pids =>
    if first.startsWith "-" && first.length ≥ 2 then
      let text := (first.drop 1).toString
      match signalNumber? text with
      | some signal => send signal (if pids.head? = some "--" then pids.drop 1 else pids)
      | none => unknown invocation.name text
    else send 15 (first :: pids)
where
  unknown (name text : String) : Action Nat := do
    complain name ("unknown signal " ++ text ++ "; valid signals:")
    return 1
  each (name : String) (signal status : Nat) : List String → Action Nat
    | [] => return status
    | text :: rest => do
      match integer? text with
      | none =>
        complain name ("failed to parse argument: " ++ quoted text)
        each name signal 1 rest
      | some pid =>
        match ← perform (.kill pid signal) with
        | .ok () => each name signal status rest
        | .error errno =>
          complain name ("sending signal to " ++ text ++ " failed: " ++ errorText errno)
          each name signal 1 rest

/-! ## Time -/

def duration? (text : String) : Option Nat := do
  let characters := text.toList
  let whole := characters.takeWhile Char.isDigit
  let rest := characters.drop whole.length
  let (places, rest) := match rest with
    | '.' :: rest => (rest.takeWhile Char.isDigit, rest.dropWhile Char.isDigit)
    | _ => ([], rest)
  guard (!(whole.isEmpty && places.isEmpty))
  let scale ← match rest with
    | [] | ['s'] => some 1
    | ['m'] => some 60
    | ['h'] => some 3600
    | ['d'] => some 86400
    | _ => none
  let value (digits : List Char) : Nat :=
    digits.foldl (fun value c => value * 10 + (c.toNat - '0'.toNat)) 0
  let places := places.take 9
  let fraction := value places * Nat.pow 10 (9 - places.length)
  return (value whole * 1000000000 + fraction) * scale

def sleep : Program := fun invocation => do
  match invocation.arguments with
  | [] =>
    complain invocation.name "missing operand"
    tryHelp invocation.name
    return 1
  | texts =>
    match texts.find? fun text => (duration? text).isNone with
    | some text =>
      if text.toLower = "infinity" || text.toLower = "inf" then
        call .pause fun impossible => nomatch impossible
      else
        complain invocation.name ("invalid time interval " ++ quoted text)
        tryHelp invocation.name
        return 1
    | none =>
      let _ ← perform (.sleep ((texts.filterMap duration?).foldl (· + ·) 0))
      return 0

/-! ## Limits -/

def prlimit : Program := fun invocation => do
  let pid? := invocation.arguments.findSome? fun word => word.dropPrefix? "--pid="
  let separate? := (invocation.arguments.dropWhile (· ≠ "--pid")).tail.head?
  let pid? := (pid?.map toString).orElse fun _ => separate?
  let limit? := invocation.arguments.findSome? fun word => word.dropPrefix? "--nofile="
  match pid?.bind integer?, (limit?.map toString).bind sizeOf? with
  | some pid, some limit =>
    match ← perform (.limitDescriptors pid limit) with
    | .ok () => return 0
    | .error errno =>
      complain invocation.name ("failed to set the NOFILE resource limit: " ++ errorText errno)
      return 1
  | _, _ =>
    complain invocation.name "bad usage"
    tryHelp invocation.name
    return 1

/-! ## Other programs -/

def runChild (name : String) (words : List String) : Action ChildReport := do
  match ← perform .fork with
  | .error _ => return .exited 126
  | .ok .child =>
    let status ← becomeProgram name words
    exit status
  | .ok (.parent pid) =>
    match ← perform (.wait pid .block) with
    | .ok report => return report
    | .error _ => return .exited 126

def wordsFrom (current : Option (List Char)) (quote : Option Char) : List Char → List String
  | [] => current.toList.map fun word => String.ofList word.reverse
  | c :: rest =>
    let push := some (c :: current.getD [])
    match quote with
    | some q =>
      if c = q then wordsFrom (some (current.getD [])) none rest else wordsFrom push quote rest
    | none =>
      if c = '\'' || c = '"' then wordsFrom (some (current.getD [])) (some c) rest
      else if c = ' ' || c = '\t' || c = '\n' then
        current.toList.map (fun word => String.ofList word.reverse) ++ wordsFrom none none rest
      else wordsFrom push none rest

def chunks {α : Type} (size : Nat) : Nat → List α → List (List α)
  | 0, _ => []
  | _, [] => []
  | bound + 1, items => items.take size :: chunks size bound (items.drop size)

def xargs : Program := fun invocation =>
  withOptions invocation
    { flags := ['0', 'r', 't', 'x'], values := ['n', 'I', 'L', 'P', 'd', 's'], permutes := false }
    fun parsed => do
      let data := (← readAll standardInput).toOption.getD ByteArray.empty
      let text := (String.fromUTF8? data).getD ""
      let words :=
        if parsed.has '0' then (text.splitToList (· == '\x00')).filter (!·.isEmpty)
        else if parsed.has 'I' then (text.splitToList (· == '\n')).filter (!·.isEmpty)
        else wordsFrom none none text.toList
      let command := if parsed.operands.isEmpty then ["echo"] else parsed.operands
      let commands := match parsed.value? 'I' with
        | some mark =>
          words.map fun word => command.map fun part => part.replace mark word
        | none =>
          let size := max 1 (((parsed.value? 'n').bind sizeOf?).getD (words.length + 1))
          (chunks size (words.length + 1) words).map (command ++ ·)
      let commands :=
        if commands.isEmpty && !parsed.has 'r' && !parsed.has 'I' then [command] else commands
      runAll invocation.name 0 commands
where
  runAll (name : String) (status : Nat) : List (List String) → Action Nat
    | [] => return status
    | words :: rest => do
      match ← runChild name words with
      | .exited 0 => runAll name status rest
      | .exited 255 => return 124
      | .exited 127 => return 127
      | .exited 126 => return 126
      | .killed _ => return 125
      | _ => runAll name 123 rest

def nohup : Program := fun invocation => do
  match invocation.arguments with
  | [] =>
    complain invocation.name "missing operand"
    tryHelp invocation.name
    return 125
  | words =>
    let _ ← perform (.setSignal 1 true)
    becomeProgram invocation.name words

def nice : Program := fun invocation => do
  let words := match invocation.arguments with
    | "-n" :: _ :: rest => rest
    | all => all
  if words.isEmpty then outputOr invocation.name "0\n".toUTF8 0
  else becomeProgram invocation.name words

def watchInterval : Nat := 10000000

/-- Waits for a child and sends it a signal at a deadline. The result is how the child ended and
whether it was signaled. -/
def waitUntil (deadline : Option Nat) (signal : Nat) (pid : Int) : Action (ChildReport × Bool) :=
  loop (fun timedOut => do
    match deadline, timedOut with
    | some deadline, false =>
      match ← perform (.wait pid .poll) with
      | .ok .running =>
        if deadline ≤ (← perform .clock) then
          let _ ← perform (.kill pid signal)
          return .again true
        let _ ← perform (.sleep watchInterval)
        return .again false
      | .ok report => return .leave (report, false)
      | .error _ => return .leave (.exited 125, false)
    | _, _ =>
      match ← perform (.wait pid .block) with
      | .ok report => return .leave (report, timedOut)
      | .error _ => return .leave (.exited 125, timedOut))
    patience false

def timeout : Program := fun invocation =>
  withOptions invocation
    { flags := ['f', 'p', 'v'], values := ['k', 's'], permutes := false
      long := [("foreground", 'f'), ("preserve-status", 'p'), ("verbose", 'v'),
        ("kill-after", 'k'), ("signal", 's')] }
    (fun parsed => do
      let fail (message : String) : Action Nat := do
        complain invocation.name message
        tryHelp invocation.name
        return 125
      let signalText := (parsed.value? 's').getD "TERM"
      match signalNumber? signalText, parsed.operands with
      | none, _ => fail (quoted signalText ++ ": invalid signal")
      | _, [] | _, [_] => fail "missing operand"
      | some signal, limit :: words =>
        match duration? limit with
        | none => fail ("invalid time interval " ++ quoted limit)
        | some limit =>
          let start ← perform .clock
          match ← perform .fork with
          | .error errno =>
            complain invocation.name ("fork system call failed: " ++ errorText errno)
            return 125
          | .ok .child =>
            let program := words.headD ""
            let errno ← perform (.exec program words)
            complain invocation.name
              ("failed to run command " ++ quoted program ++ ": " ++ errorText errno)
            exit (startFailure errno)
          | .ok (.parent pid) =>
            let deadline := if limit = 0 then none else some (start + limit)
            let (report, timedOut) ← waitUntil deadline signal pid
            finish signal (parsed.has 'p') timedOut report)
    125
where
  finish (signal : Nat) (preserves timedOut : Bool) : ChildReport → Action Nat
    | .exited code => return if timedOut && !preserves then 124 else code
    | .killed ended => do
      if !timedOut || signal = 9 then
        let ids ← perform .processIds
        let _ ← perform (.kill ids.own ended)
      return if timedOut && !preserves then 124 else 128 + ended
    | .running => return 125

def runDirectly (values : List Char) (failure : Nat) : Program := fun invocation =>
  withOptions invocation
    { flags := ['c', 'f', 'w'], values, permutes := false }
    (fun parsed => do
      if parsed.operands.isEmpty then
        complain invocation.name "missing operand"
        tryHelp invocation.name
        return failure
      let program := parsed.operands.headD ""
      let errno ← perform (.exec program parsed.operands)
      complain invocation.name ("failed to run command " ++ quoted program ++ ": " ++
        errorText errno)
      return startFailure errno)
    failure

def stdbuf : Program := runDirectly ['i', 'o', 'e'] 125

/-! ## Who and where -/

def userName : String := "root"

def whoami : Program := fun invocation => outputOr invocation.name (userName ++ "\n").toUTF8 0

def id : Program := fun invocation => do
  let name := invocation.arguments.any fun argument => argument ∈ ["-un", "-nu", "-gn", "-ng"]
  let short := invocation.arguments.any fun argument => argument ∈ ["-u", "-g", "-G", "-ru"]
  let text :=
    if name then userName else if short then "0" else "uid=0(root) gid=0(root) groups=0(root)"
  outputOr invocation.name (text ++ "\n").toUTF8 0

def uname : Program := fun invocation => outputOr invocation.name "Linux\n".toUTF8 0

def tty : Program := fun invocation => do
  match ← perform (.isTerminal standardInput) with
  | .ok true => outputOr invocation.name "/dev/pts/0\n".toUTF8 0
  | _ => outputOr invocation.name "not a tty\n".toUTF8 1

end PipelineShell.Utility
