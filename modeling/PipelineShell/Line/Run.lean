import PipelineShell.Job.Run
import PipelineShell.Job.Table
import PipelineShell.Redirection

/-!
# Running a line

The statements of a line run in order until one cannot be started. A started program stops the line
only if it is killed by a signal that has no name, since nothing is learnt of its end then.
-/

namespace PipelineShell

open PipelineShell.Action

def notFoundStatus : Nat := 127

def failedStatus : Nat := 1

namespace Statement

def announcement (statement : Statement) (settings : Settings) : String :=
  "running \x60" ++ statement.text.toString ++ "\x60 (" ++ toString statement.pipeline.length ++
    " stage(s), " ++ settings.scheduling.name ++ ")"

/-- Opens the files of a statement, runs its pipeline as a job and closes the files. Nothing may be
left in the buffer of standard output, of which the job would get a copy. -/
def run (statement : Statement) (flags : Flags) (settings : Settings) :
    Action (Except RunError JobOutcome) := do
  match ← Redirection.openFor statement with
  | .error error => return .error error
  | .ok redirection =>
    settings.console.log (statement.announcement settings)
    match ← perform .flush with
    | .error cause =>
      redirection.close
      return .error (.file cause)
    | .ok () =>
      let outcome ← statement.pipeline.runAsJob redirection.inputEnd redirection.outputEnd
        statement.background flags settings.scheduling
      redirection.close
      return outcome

end Statement

namespace Line

structure Progress where
  status : Nat := 0
  error : Bool := false
  jobs : JobTable
deriving Repr, DecidableEq

/-- Tells the user about the outcome of a statement and keeps a background job. -/
def record (settings : Settings) (statement : Statement) (jobs : JobTable) :
    Except RunError JobOutcome → Action JobTable
  | .ok (.finished _) => return jobs
  | .ok (.background pid) => do
    let (id, jobs) ← jobs.add pid statement.text
    Console.print ("[" ++ toString id ++ "] " ++ toString pid ++ "\n")
    return jobs
  | .ok (.failed errno) => do
    settings.console.log
      ("\x60" ++ statement.text.toString ++ "\x60 failed to start: " ++ errno.description)
    return jobs
  | .error error => do
    settings.console.error error.message
    return jobs

def Progress.after (jobs : JobTable) : Except RunError JobOutcome → Progress
  | .ok (.finished status) => ⟨status.statusCode, false, jobs⟩
  | .ok (.background _) => ⟨0, false, jobs⟩
  | .ok (.failed _) => ⟨notFoundStatus, true, jobs⟩
  | .error _ => ⟨failedStatus, true, jobs⟩

def runStatements (settings : Settings) (flags : Flags) :
    Progress → List Statement → Action Progress
  | progress, [] => return progress
  | progress, statement :: rest => do
    let outcome ← statement.run flags settings
    let jobs ← record settings statement progress.jobs outcome
    let progress := Progress.after jobs outcome
    if progress.error then return progress
    runStatements settings flags progress rest

/-- Runs a line. A line that has failed before is not run. Returns the status, the line and the
job table. -/
def run (line : Line) (settings : Settings) (jobs : JobTable) :
    Action (Nat × Line × JobTable) := do
  if line.flags.error then return (failedStatus, line, jobs)
  let progress ← runStatements settings line.flags { jobs } line.statements
  return (progress.status, if progress.error then line.markError else line, progress.jobs)

end Line

end PipelineShell
