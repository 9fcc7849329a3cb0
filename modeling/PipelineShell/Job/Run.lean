import PipelineShell.Pipeline.Run

/-!
# Running a pipeline as a job

A job is a child that supervises a pipeline and becomes its last program. A foreground job is
waited for; the supervisor reports over a channel that it could not start a stage, so that no exit
status of a program is ever mistaken for that.
-/

namespace PipelineShell

open PipelineShell.Action

inductive JobOutcome
  | finished (status : WaitStatus)
  | failed (errno : Errno)
  | background (pid : Int)
deriving Repr, DecidableEq

def supervisorFailureStatus : Nat := 1

namespace Pipeline

def supervise {α : Type} (pipeline : Pipeline) (input output : Descriptor) (flags : Flags)
    (scheduling : Scheduling) (reporter : Option Descriptor) : Action α := do
  let (failure, _) ← pipeline.run input output flags scheduling
  if let some reporter := reporter then Channel.report reporter failure.errno
  exit supervisorFailureStatus

def runInBackground (pipeline : Pipeline) (input output : Descriptor) (flags : Flags)
    (scheduling : Scheduling) : Action (Except RunError JobOutcome) := do
  match ← perform .fork with
  | .error errno => return .error (.system errno)
  | .ok .child => pipeline.supervise input output flags scheduling none
  | .ok (.parent child) => return .ok (.background child)

/-- The interpreter's part of a foreground job: it waits for the start or the failure of the
pipeline, and then for the end of the supervisor. -/
def awaitJob (channel : Channel) (child : Int) : Action (Except RunError JobOutcome) := do
  closeAll [channel.reporter]
  let failure ← Channel.await channel.watcher
  match ← perform (.wait child .block) with
  | .error errno => return .error (.system errno)
  | .ok report =>
    match WaitStatus.ofReport report, failure with
    | .error errno, _ => return .error (.system errno)
    | .ok _, some errno => return .ok (.failed errno)
    | .ok status, none => return .ok (.finished status)

def runInForeground (pipeline : Pipeline) (input output : Descriptor) (flags : Flags)
    (scheduling : Scheduling) : Action (Except RunError JobOutcome) := do
  match ← Channel.create with
  | .error errno => return .error (.system errno)
  | .ok channel =>
    match ← perform .fork with
    | .error errno =>
      closeAll [channel.watcher, channel.reporter]
      return .error (.system errno)
    | .ok .child =>
      closeAll [channel.watcher]
      pipeline.supervise input output flags scheduling (some channel.reporter)
    | .ok (.parent child) => awaitJob channel child

def runAsJob (pipeline : Pipeline) (input output : Descriptor) (background : Bool)
    (flags : Flags) (scheduling : Scheduling) : Action (Except RunError JobOutcome) :=
  if background then pipeline.runInBackground input output flags scheduling
  else pipeline.runInForeground input output flags scheduling

end Pipeline

end PipelineShell
