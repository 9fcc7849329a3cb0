import PipelineShell.Script.Builtin.Basic

namespace PipelineShell.Script.Builtin

open PipelineShell.Action Eval

def endStatus : ChildReport → Nat
  | .running => 0
  | .exited code => code
  | .killed signal => 128 + signal

def signalTexts : List String := [
  "Hangup", "Interrupt", "Quit", "Illegal instruction", "Trace/breakpoint trap", "Aborted",
  "Bus error", "Floating point exception", "Killed", "User defined signal 1",
  "Segmentation fault", "User defined signal 2", "Broken pipe", "Alarm clock", "Terminated",
  "Stack fault", "Child exited", "Continued", "Stopped (signal)", "Stopped",
  "Stopped (tty input)", "Stopped (tty output)", "Urgent I/O condition",
  "CPU time limit exceeded", "File size limit exceeded", "Virtual timer expired",
  "Profiling timer expired", "Window changed", "I/O possible", "Power failure",
  "Bad system call"]

def signalText (signal : Nat) : String :=
  match signalTexts[signal - 1]? with
  | some text => text
  | none =>
    if 34 ≤ signal && signal ≤ 64 then "Real-time signal " ++ toString (signal - 34)
    else "Unknown signal " ++ toString signal

def tellEnd (report : ChildReport) : Eval Unit := do
  if let .killed signal := report then
    if signal ≠ Signal.interrupt.number && signal ≠ Signal.brokenPipe.number then
      write standardError (signalText signal ++ "\n")

def waitFor (job : Job) : Eval Nat := do
  match job.report with
  | some report =>
    modify (·.noteEnd job.pid report true)
    return endStatus report
  | none =>
    match ← act (perform (.wait job.pid .block)) with
    | .ok report =>
      modify (·.noteEnd job.pid report true)
      tellEnd report
      return endStatus report
    | .error _ => return 127

def waitAll : List Job → Eval Unit
  | [] => return
  | job :: rest => do
    if job.report.isNone then
      if let .ok report ← act (perform (.wait job.pid .block)) then
        modify (·.noteEnd job.pid report true)
    modify fun shell =>
      { shell with jobs := shell.jobs.map fun other =>
          if other.pid = job.pid then { other with waited := true } else other }
    waitAll rest

def findJob (text : String) : Eval (Option Job) := do
  let jobs := (← get).jobs
  match text.toList with
  | '%' :: rest =>
    let found := match rest with
      | [] | ['%'] | ['+'] => jobs.getLast?
      | ['-'] => jobs.dropLast.getLast?
      | digits => (String.ofList digits).toNat?.bind fun n => jobs.find? (·.number = n)
    if found.isNone then Eval.fail ("No such job: " ++ text)
    return found
  | _ =>
    let pid ← count text
    return jobs.find? (·.pid = (pid : Int))

def wait : Builtin := fun arguments => do
  let (_, operands) ← options [] arguments
  if operands.isEmpty then
    waitAll (← get).jobs
    return 0
  let mut status := 0
  for text in operands do
    match ← findJob text with
    | some job => status ← waitFor job
    | none => status := 127
  return status

def pollJobs : List Job → Eval Unit
  | [] => return
  | job :: rest => do
    if job.report.isNone then
      match ← act (perform (.wait job.pid .poll)) with
      | .ok .running | .error _ => pure ()
      | .ok report => modify (·.noteEnd job.pid report false)
    pollJobs rest

def jobState (job : Job) : String :=
  match job.report with
  | none | some .running => "Running"
  | some (.exited 0) => "Done"
  | some (.exited code) => "Done(" ++ toString code ++ ")"
  | some (.killed signal) => signalText signal

def jobLines (withPids : Bool) (jobs : List Job) : List String :=
  jobs.reverse.zipIdx.map fun (job, i) =>
    let mark := if i = 0 then "+" else if i = 1 then "-" else " "
    let heading := "[" ++ toString job.number ++ "] " ++ mark ++ " " ++
      (if withPids then toString job.pid ++ " " else "") ++ jobState job
    heading ++ String.ofList (List.replicate (max 1 (33 - heading.length)) ' ') ++ "\n"

def jobs : Builtin := fun arguments => do
  let (found, _) ← options ['l', 'p'] arguments
  pollJobs (← get).jobs
  let all := (← get).jobs
  let lines :=
    if found.any (·.1 = 'p') then all.reverse.map fun job => toString job.pid ++ "\n"
    else jobLines (found.any (·.1 = 'l')) all
  modify fun shell => { shell with jobs := all.filter (·.report.isNone) }
  writeOutput "jobs" (String.join lines).toUTF8 0

def continueJob : Builtin := fun arguments => do
  let (_, operands) ← options [] arguments
  match operands with
  | [] => Eval.fail "No current job"
  | name :: _ => Eval.fail ("No such job: " ++ name)

end PipelineShell.Script.Builtin
