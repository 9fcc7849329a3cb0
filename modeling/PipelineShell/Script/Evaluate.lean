import PipelineShell.Script.Builtin
import PipelineShell.Script.Redirection
import PipelineShell.Script.Source

/-!
# Running commands

Commands run in order and each leaves a status. Programs, the stages of pipelines, subshells and
command substitutions run in processes of their own. Every function has a bound on how many more
commands it may run.
-/

namespace PipelineShell.Script

open PipelineShell.Action Eval

structure Manner where
  isLast : Bool := false
  tested : Bool := false

namespace Evaluate

def awaitChild (pid : Int) : Eval Nat := do
  match ← act (uninterrupted (perform (.wait pid .block))) with
  | .ok report =>
    Builtin.tellEnd report
    Builtin.pollJobs (← get).jobs
    return Builtin.endStatus report
  | .error _ => return 127

def awaitChildren (status : Nat) : List Int → Eval Nat
  | [] => return status
  | pid :: rest => do awaitChildren (← awaitChild pid) rest

def inChild (shell : Shell) : Shell :=
  { shell with traps := shell.traps.filter (·.2.isEmpty), loops := 0, jobs := [] }

def finalStatus (shell : Shell) : Except Flow Unit → Nat
  | .ok () => shell.status
  | .error (.exit status) | .error (.leave status) => status
  | .error .failed => mistakeStatus
  | .error (.breakLoops _) | .error (.continueLoop _) => shell.status

def afterwards {α : Type} (body : Eval α) (cleanUp : Eval Unit) : Eval α := do
  let result ← ExceptT.mk (do
    let result ← body.run
    return .ok result : StateT Shell Action (Except Flow (Except Flow α)))
  cleanUp
  match result with
  | .ok value => return value
  | .error flow => throw flow

def becomeProgram {α : Type} (environment : Environment) (words : List String) : Eval α := do
  let name := words.headD ""
  let _ ← act (perform (.setEnvironment environment))
  let errno ← act (perform (.exec name words))
  warn (name ++ ": " ++ Purpose.message .executing errno)
  let missing := errno = .noEntry || errno = .notDirectory || errno = .tooManyLinks ||
    errno = .nameTooLong
  act (exit (if missing then 127 else 126))

def withAssignments (environment : Environment) (values : List (String × String)) : Environment :=
  values.foldl (fun environment (name, value) => Utility.setVariable environment name value)
    environment

def trace (values : List (String × String)) (words : List String) : Eval Unit := do
  let shell ← get
  if shell.hasFlag 'x' then
    let parts := values.map (fun (name, value) => name ++ "=" ++ value) ++ words
    write standardError ((shell.value? "PS4").getD "+ " ++ " ".intercalate parts ++ "\n")

inductive Round
  | again
  | over

def roundOf : Except Flow Unit → Eval Round
  | .ok () | .error (.continueLoop 0) | .error (.continueLoop 1) => return .again
  | .error (.continueLoop (count + 1)) => throw (.continueLoop count)
  | .error (.breakLoops 0) | .error (.breakLoops 1) => return .over
  | .error (.breakLoops (count + 1)) => throw (.breakLoops count)
  | .error flow => throw flow

def attempt (body : Eval Unit) : Eval (Except Flow Unit) :=
  ExceptT.mk (do return .ok (← body.run) : StateT Shell Action (Except Flow (Except Flow Unit)))

def underName {α : Type} (name : String) (isSpecial : Bool) (body : Eval α) :
    Eval (Option α) := do
  let outer := (← get).command
  modify fun shell => { shell with command := some name }
  let result ← ExceptT.mk (do return .ok (← body.run) :
    StateT Shell Action (Except Flow (Except Flow α)))
  modify fun shell => { shell with command := outer }
  match result with
  | .ok value => return some value
  | .error .failed =>
    if isSpecial then throw .failed
    setStatus mistakeStatus
    return none
  | .error flow => throw flow

def enterLoop : Eval Unit := modify fun shell => { shell with loops := shell.loops + 1 }
def leaveLoop : Eval Unit := modify fun shell => { shell with loops := shell.loops - 1 }

def checkFailure (manner : Manner) : Eval Unit := do
  let shell ← get
  if shell.status ≠ 0 && !manner.tested && shell.hasFlag 'e' then throw (.exit shell.status)

def scriptPath (name : String) : Eval (Option String) := do
  if name.contains '/' then return some name
  let path := ((← get).value? "PATH").getD ""
  find (path.splitToList (· == ':'))
where
  find : List String → Eval (Option String)
    | [] => return none
    | directory :: rest => do
      let path := if directory.isEmpty then name else directory ++ "/" ++ name
      match ← act (perform (.fileInfo path true)) with
      | .ok info => if info.kind = .regular then return some path else find rest
      | .error _ => find rest

def restoreLocals : Eval Unit := do
  let shell ← get
  match shell.hidden with
  | [] => return
  | frame :: frames =>
    set (frame.foldl (fun (shell : Shell) (name, old) =>
      match old with
      | some entry => shell.setVariable name entry
      | none => shell.unset name) { shell with hidden := frames })

mutual

def runSource (bound : Nat) (manner : Manner) (source : Source) : Eval Unit := do
  match bound with
  | 0 => act .exhausted
  | bound + 1 =>
    let shell ← get
    match source.next shell.aliases with
    | .over => return
    | .needsMore =>
      let source ← act source.readMore
      runSource bound manner source
    | .wrong line message =>
      modify fun shell => { shell with line }
      fail message
    | .line items rest =>
      if shell.hasFlag 'v' then
        let passed := source.text.take (source.text.length - rest.text.length)
        write standardError (String.ofList passed)
      let isLast := manner.isLast && rest.isSpent && shell.traps.isEmpty
      runItems bound { manner with isLast } items
      runSource bound manner rest

def runText (bound : Nat) (text : String) : Eval Unit := do
  match bound with
  | 0 => act .exhausted
  | bound + 1 => runSource bound {} { Source.ofText text with line := (← get).line }

def finish {α : Type} (bound : Nat) (result : Except Flow Unit) : Eval α := do
  match bound with
  | 0 => act .exhausted
  | bound + 1 =>
    let shell ← get
    let status := finalStatus shell result
    match shell.traps.lookup 0 with
    | none | some "" => act (exit status)
    | some command =>
      set { shell with status, traps := shell.traps.filter (·.1 ≠ 0) }
      match ← attempt (runText bound command) with
      | .error (.exit status) => act (exit status)
      | _ => act (exit status)

def inFork (bound : Nat) (body : Eval Unit) : Eval Int := do
  match bound with
  | 0 => act .exhausted
  | bound + 1 =>
    match ← act (perform .fork) with
    | .error errno => fail ("Cannot fork: " ++ Errno.systemText errno.number)
    | .ok .child =>
      modify inChild
      let result ← attempt body
      finish bound result
    | .ok (.parent pid) => return pid

def capture (bound : Nat) (items : List Item) : Eval (List Char) := do
  match bound with
  | 0 => act .exhausted
  | bound + 1 =>
    match ← act (perform .pipe) with
    | .error errno => fail ("Pipe call failed: " ++ Errno.systemText errno.number)
    | .ok (readEnd, writeEnd) =>
      let pid ← inFork bound (do
        act (closeAll [readEnd])
        act (Redirect.install writeEnd standardOutput)
        runItems bound { isLast := true } items)
      act (closeAll [writeEnd])
      let output ← act (Utility.readAll readEnd)
      act (closeAll [readEnd])
      let status ← awaitChild pid
      modify fun shell => { shell with substituted := status }
      return Utf8.decodeLossy (output.toOption.getD ByteArray.empty).toList

def runItems (bound : Nat) (manner : Manner) (items : List Item) : Eval Unit := do
  match bound with
  | 0 => act .exhausted
  | bound + 1 =>
    match items with
    | [] => return
    | item :: rest =>
      runItem bound { manner with isLast := manner.isLast && rest.isEmpty } item
      runItems bound manner rest

def runItem (bound : Nat) (manner : Manner) (item : Item) : Eval Unit := do
  match bound with
  | 0 => act .exhausted
  | bound + 1 =>
    match item with
    | .mk first rest true =>
      let pid ← inFork bound (do
        let _ ← act (perform (.setSignal 2 true))
        let _ ← act (perform (.setSignal 3 true))
        match ← act (perform (.openFile "/dev/null" { read := true })) with
        | .ok opened => act (Redirect.install opened standardInput)
        | .error _ => pure ()
        runJoined bound { isLast := true } first rest)
      modify fun shell => { shell.addJob pid with status := 0 }
    | .mk first rest false => runJoined bound manner first rest

def runJoined (bound : Nat) (manner : Manner) (first : Chain) (rest : List (Bool × Chain)) :
    Eval Unit := do
  match bound with
  | 0 => act .exhausted
  | bound + 1 =>
    match rest with
    | [] => runChain bound manner first
    | _ =>
      runChain bound { isLast := false, tested := true } first
      runRest bound manner rest

def runRest (bound : Nat) (manner : Manner) (rest : List (Bool × Chain)) : Eval Unit := do
  match bound with
  | 0 => act .exhausted
  | bound + 1 =>
    match rest with
    | [] => return
    | (onSuccess, chain) :: others =>
      if onSuccess = ((← get).status = 0) then
        let isFinal := others.isEmpty
        runChain bound
          { isLast := manner.isLast && isFinal, tested := manner.tested || !isFinal } chain
      runRest bound manner others

def runChain (bound : Nat) (manner : Manner) (chain : Chain) : Eval Unit := do
  match bound with
  | 0 => act .exhausted
  | bound + 1 =>
    match chain with
    | .mk negated commands =>
      let manner :=
        { isLast := manner.isLast && !negated, tested := manner.tested || negated : Manner }
      match commands with
      | [command] => runCommand bound manner command
      | _ =>
        let pids ← startStages bound none commands
        setStatus (← awaitChildren 0 pids)
        checkFailure manner
      if negated then
        modify fun shell => { shell with status := if shell.status = 0 then 1 else 0 }

def startStages (bound : Nat) (input : Option Descriptor) (commands : List Command) :
    Eval (List Int) := do
  match bound with
  | 0 => act .exhausted
  | bound + 1 =>
    match commands with
    | [] => return []
    | command :: rest =>
      let pipe ←
        if rest.isEmpty then pure none else pure (← act (perform .pipe)).toOption
      let pid ← inFork bound (do
        if let some (readEnd, _) := pipe then act (closeAll [readEnd])
        if let some input := input then act (Redirect.install input standardInput)
        if let some (_, writeEnd) := pipe then act (Redirect.install writeEnd standardOutput)
        runCommand bound { isLast := true } command)
      act (closeAll input.toList)
      if let some (_, writeEnd) := pipe then act (closeAll [writeEnd])
      let others ← startStages bound (pipe.map (·.1)) rest
      return pid :: others

def withRedirects (bound : Nat) (redirects : List Redirect) (body : Eval Unit) : Eval Unit := do
  match bound with
  | 0 => act .exhausted
  | bound + 1 =>
    if redirects.isEmpty then body
    else
      let (saved, ok) ← Redirect.applyAll (capture bound) [] redirects
      if ok then afterwards body (act (Redirect.restore saved))
      else
        act (Redirect.restore saved)
        setStatus mistakeStatus

def runCommand (bound : Nat) (manner : Manner) (command : Command) : Eval Unit := do
  match bound with
  | 0 => act .exhausted
  | bound + 1 =>
    if (← get).hasFlag 'n' then return
    match command with
    | .simple line assignments words redirects =>
      modify fun shell => { shell with line, substituted := 0 }
      runSimple bound manner assignments words redirects
      checkFailure manner
    | .group body redirects =>
      let isLast := manner.isLast && redirects.isEmpty
      withRedirects bound redirects (runItems bound { manner with isLast } body)
    | .subshell body redirects =>
      if manner.isLast && (← get).traps.isEmpty then
        withRedirects bound redirects (runItems bound manner body)
        throw (.exit (← get).status)
      else
        let pid ← inFork bound (withRedirects bound redirects
          (runItems bound { isLast := true, tested := manner.tested } body))
        setStatus (← awaitChild pid)
        checkFailure manner
    | .choice branches otherwise redirects =>
      withRedirects bound redirects (runBranches bound manner branches otherwise)
    | .repeated whileFails condition body redirects =>
      withRedirects bound redirects (do
        enterLoop
        afterwards (repeatBody bound manner 0 whileFails condition body) leaveLoop)
    | .each name words body redirects =>
      withRedirects bound redirects (do
        let values ← match words with
          | some words => Expansion.allTexts (capture bound) words
          | none => pure (← get).positional
        setStatus 0
        enterLoop
        afterwards (runEach bound manner name values body) leaveLoop)
    | .select subject clauses redirects =>
      withRedirects bound redirects (do
        let text ← Expansion.text (capture bound) subject
        setStatus 0
        runClauses bound manner text.toList clauses)
    | .define name body =>
      modify fun shell =>
        { shell with functions := (name, body) :: shell.functions.filter (·.1 ≠ name), status := 0 }

def runBranches (bound : Nat) (manner : Manner) (branches : List (List Item × List Item))
    (otherwise : List Item) : Eval Unit := do
  match bound with
  | 0 => act .exhausted
  | bound + 1 =>
    match branches with
    | [] =>
      setStatus 0
      runItems bound manner otherwise
    | (condition, body) :: rest =>
      runItems bound { tested := true } condition
      if (← get).status = 0 then runItems bound manner body
      else runBranches bound manner rest otherwise

def repeatBody (bound : Nat) (manner : Manner) (status : Nat) (whileFails : Bool)
    (condition body : List Item) : Eval Unit := do
  match bound with
  | 0 => act .exhausted
  | bound + 1 =>
    let tried ← attempt (runItems bound { tested := true } condition)
    match ← roundOf tried with
    | .over => return
    | .again =>
      if tried.isOk && (((← get).status = 0) = whileFails) then setStatus status
      else
        match ← roundOf (← attempt (runItems bound { tested := manner.tested } body)) with
        | .again => repeatBody bound manner (← get).status whileFails condition body
        | .over => return

def runEach (bound : Nat) (manner : Manner) (name : String) (values : List String)
    (body : List Item) : Eval Unit := do
  match bound with
  | 0 => act .exhausted
  | bound + 1 =>
    match values with
    | [] => return
    | value :: rest =>
      assign name value
      match ← roundOf (← attempt (runItems bound { tested := manner.tested } body)) with
      | .again => runEach bound manner name rest body
      | .over => return

def runClauses (bound : Nat) (manner : Manner) (text : List Char)
    (clauses : List (List (List Part) × List Item)) : Eval Unit := do
  match bound with
  | 0 => act .exhausted
  | bound + 1 =>
    match clauses with
    | [] => return
    | (patterns, body) :: rest =>
      if ← fitsAny bound text patterns then runItems bound manner body
      else runClauses bound manner text rest

def fitsAny (bound : Nat) (text : List Char) (patterns : List (List Part)) : Eval Bool := do
  match bound with
  | 0 => act .exhausted
  | bound + 1 =>
    match patterns with
    | [] => return false
    | pattern :: rest =>
      let pattern ← Expansion.pattern (capture bound) pattern
      if pattern.fits text then return true else fitsAny bound text rest

def assignmentValues (bound : Nat) (lasting : Bool) (assignments : List (String × List Part)) :
    Eval (List (String × String)) := do
  match bound with
  | 0 => act .exhausted
  | bound + 1 =>
    match assignments with
    | [] => return []
    | (name, word) :: rest =>
      let value ← Expansion.text (capture bound) word
      if lasting then assign name value
      return (name, value) :: (← assignmentValues bound lasting rest)

def runSimple (bound : Nat) (manner : Manner) (assignments : List (String × List Part))
    (words : List (List Part)) (redirects : List Redirect) : Eval Unit := do
  match bound with
  | 0 => act .exhausted
  | bound + 1 =>
    let texts ← Expansion.allTexts (capture bound) words
    match texts with
    | [] =>
      let (saved, ok) ← Redirect.applyAll (capture bound) [] redirects
      if ok then
        let values ← assignmentValues bound true assignments
        act (Redirect.restore saved)
        trace values []
        setStatus (← get).substituted
      else
        act (Redirect.restore saved)
        setStatus mistakeStatus
    | name :: arguments =>
      let shell ← get
      let isSpecial := Builtin.special.contains name
      let body? := shell.functions.lookup name
      let lasting := isSpecial && body?.isNone
      let (saved, ok) ← Redirect.applyAll (capture bound) [] redirects
      if !ok then
        act (Redirect.restore saved)
        if isSpecial then throw .failed
        setStatus mistakeStatus
      else if name = "exec" && body?.isNone then
        let values ← assignmentValues bound true assignments
        act (Redirect.forget saved)
        if arguments.isEmpty then setStatus 0
        else
          modify fun shell => { shell with command := some name }
          becomeProgram (withAssignments (← get).environment values) arguments
      else
        afterwards (do
          let values ← assignmentValues bound lasting assignments
          trace values texts
          match body? with
          | some body =>
            withTemporary values (callFunction bound body arguments)
          | none =>
            if Builtin.isBuiltin name then
              let run := runBuiltin bound name isSpecial arguments
              if lasting then run else withTemporary values run
            else
              for (name, _) in values do checkWritable name
              let environment := withAssignments (← get).environment values
              runProgram bound manner environment texts)
          (act (Redirect.restore saved))

def withTemporary (values : List (String × String)) (body : Eval Unit) : Eval Unit := do
  if values.isEmpty then body
  else
    let old := (← get).bindings
    for (name, value) in values do assign name value
    afterwards body (modify fun shell =>
      values.foldl (fun (shell : Shell) (name, _) =>
        match old.lookup name with
        | some entry => shell.setVariable name entry
        | none => shell.unset name) shell)

def callFunction (bound : Nat) (body : Command) (arguments : List String) : Eval Unit := do
  match bound with
  | 0 => act .exhausted
  | bound + 1 =>
    let shell ← get
    set { shell with positional := arguments, hidden := [] :: shell.hidden, loops := 0 }
    let result ← attempt (runCommand bound {} body)
    restoreLocals
    modify fun after => { after with positional := shell.positional, loops := shell.loops }
    match result with
    | .ok () => return
    | .error (.leave status) => setStatus status
    | .error flow => throw flow

def runProgram (bound : Nat) (manner : Manner) (environment : Environment) (words : List String) :
    Eval Unit := do
  match bound with
  | 0 => act .exhausted
  | bound + 1 =>
    if manner.isLast && (← get).traps.isEmpty then becomeProgram environment words
    else
      let name := words.headD ""
      if ((← get).located.lookup name).isNone then
        let _ ← Builtin.locate name
      let pid ← inFork bound (becomeProgram environment words)
      setStatus (← awaitChild pid)

def runBuiltin (bound : Nat) (name : String) (isSpecial : Bool) (arguments : List String) :
    Eval Unit := do
  match bound with
  | 0 => act .exhausted
  | bound + 1 =>
    match name with
    | "eval" =>
      setStatus 0
      let _ ← underName name isSpecial (runText bound (" ".intercalate arguments))
    | "." =>
      let found ← underName name isSpecial (do
        let (_, operands) ← Builtin.options [] arguments
        let name := operands.headD ""
        match ← scriptPath name with
        | some path => return path
        | none => fail (name ++ ": not found"))
      if let some path := found then runScript bound name isSpecial path
    | "kill" =>
      if let some (status, pending) ← underName name isSpecial (Builtin.kill arguments) then
        setStatus status
        runTraps bound pending
    | "command" =>
      let parsed ← underName name false (Builtin.options ['p', 'v', 'V'] arguments)
      match parsed with
      | none => return
      | some (_, []) => setStatus 0
      | some (found, inner :: rest) =>
        if found.any (·.1 = 'v') then setStatus (← Builtin.describe inner true)
        else if found.any (·.1 = 'V') then setStatus (← Builtin.describe inner false)
        else if Builtin.isBuiltin inner then runBuiltin bound inner false rest
        else runProgram bound {} (← get).environment (inner :: rest)
    | _ =>
      match Builtin.plain.lookup name with
      | some builtin =>
        if let some status ← underName name isSpecial (builtin arguments) then setStatus status
      | none => setStatus 127

def runScript (bound : Nat) (name : String) (isSpecial : Bool) (path : String) : Eval Unit := do
  match bound with
  | 0 => act .exhausted
  | bound + 1 =>
    match ← act (perform (.openFile path { read := true })) with
    | .error errno =>
      let _ ← underName name isSpecial (fail (α := Unit)
        ("cannot open " ++ path ++ ": " ++ Purpose.message .opening errno))
    | .ok descriptor =>
      setStatus 0
      let line := (← get).line
      match ← attempt (do
        let _ ← underName path isSpecial
          (afterwards (runSource bound {} (Source.ofDescriptor descriptor))
            (act (closeAll [descriptor])))) with
      | .ok () => modify fun shell => { shell with line }
      | .error (.leave status) => setStatus status
      | .error flow => throw flow

def runTraps (bound : Nat) (commands : List String) : Eval Unit := do
  match bound with
  | 0 => act .exhausted
  | bound + 1 =>
    match commands with
    | [] => return
    | command :: rest =>
      let status := (← get).status
      runText bound command
      setStatus status
      runTraps bound rest

end

end Evaluate

end PipelineShell.Script
