import PipelineShell.Channel
import PipelineShell.Failure
import PipelineShell.Line
import PipelineShell.Settings

/-!
# Running a pipeline

`Pipeline.run` takes place in a process of its own, which becomes the last program of the pipeline.
It starts the earlier stages one after the other, each writing into a fresh pipe that the next one
reads, and then replaces itself. It returns only on a failure, which marks the line as failed.
-/

namespace PipelineShell

open PipelineShell.Action

def commandNotFound : String := "Error: command not found!\n"

def execFailureStatus : Nat := 255

def Word.byteLength (word : Word) : Nat := word.foldl (fun total c => total + c.utf8Size) 0

def Word.nulPosition? (word : Word) : Option Nat :=
  if '\x00' ∈ word then some (Word.byteLength (word.takeWhile (· ≠ '\x00'))) else none

def Stage.execForm (stage : Stage) : Except RunError (List String) :=
  match stage.args.findSome? Word.nulPosition? with
  | some position => .error (.nul position)
  | none => .ok (stage.args.map Word.toString)

/-- A program to execute and all its arguments, known to be acceptable before any fork. -/
structure ExecPlan where
  program : Word
  arguments : List String
deriving Repr, DecidableEq

namespace ExecPlan

def ofStage (stage : Stage) : Except RunError ExecPlan :=
  match stage.program? with
  | none => .error .emptyStage
  | some program =>
    match stage.execForm with
    | .ok arguments => .ok ⟨program, arguments⟩
    | .error error => .error error

/-- Gives the signals that the interpreter treats in its own way their default actions again.
Returns whether a broken pipe ends the process now. -/
def restoreSignals : Action Bool := do
  let _ ← perform (.setSignal Signal.interrupt.number false)
  let restored ← perform (.setSignal Signal.brokenPipe.number false)
  return restored.toOption.isSome

end ExecPlan

/-- Why a process has not become a program, and whether a broken pipe ends it now. -/
structure ExecFailure where
  errno : Errno
  mortal : Bool := false
deriving Repr, DecidableEq

def ExecPlan.exec (plan : ExecPlan) : Action ExecFailure := do
  let mortal ← restoreSignals
  let errno ← perform (.exec plan.program.toString plan.arguments)
  return ⟨errno, mortal⟩

def attach (source target : Descriptor) : Action (Except Errno Unit) :=
  if source = target then return .ok () else perform (.duplicateTo source target)

def attachStreams (input output : Descriptor) : Action (Except Errno Unit) := do
  match ← attach input standardInput with
  | .error errno => return .error errno
  | .ok () => attach output standardOutput

def ExecPlan.execWith (plan : ExecPlan) (input output : Descriptor) : Action ExecFailure := do
  match ← attachStreams input output with
  | .ok () => plan.exec
  | .error errno => return { errno }

/-- Tells the user that a stage could not be started. If nobody can read it, a process that a broken
pipe ends does not come back. -/
def announceNotFound (mortal : Bool) : Action Unit := do
  match ← perform (.write standardOutput commandNotFound.toUTF8) with
  | .ok _ => return
  | .error errno =>
    if mortal ∧ errno = .brokenPipe then die Signal.brokenPipe.number else return

/-- The child's part of a start: it becomes the program, or reports why it could not and ends. -/
def ExecPlan.enter {α : Type} (plan : ExecPlan) (channel : Channel) (input output : Descriptor) :
    Action α := do
  closeAll [channel.watcher]
  let failure ← plan.execWith input output
  Channel.report channel.reporter failure.errno
  exit execFailureStatus

/-- The parent's part of a start: it waits until the child has become the program. A child that
could not is collected. -/
def ExecPlan.confirm (plan : ExecPlan) (channel : Channel) (child : Int) :
    Action (Except RunError Int) := do
  closeAll [channel.reporter]
  match ← Channel.await channel.watcher with
  | none => return .ok child
  | some errno =>
    let _ ← perform (.wait child .block)
    return .error (.exec plan.program errno)

/-- Forks a child that becomes the program. Returns once the child has done so, or with the reason
why it could not, after collecting it. -/
def spawn (plan : ExecPlan) (input output : Descriptor) : Action (Except RunError Int) := do
  match ← Channel.create with
  | .error errno => return .error (.system errno)
  | .ok channel =>
    match ← perform .fork with
    | .error errno =>
      closeAll [channel.reporter, channel.watcher]
      return .error (.system errno)
    | .ok .child => plan.enter channel input output
    | .ok (.parent child) => plan.confirm channel child

/-- Waits for a started stage to end. Being killed is a failure, any exit status is not. -/
def awaitStage (plan : ExecPlan) (child : Int) : Action (Except RunError Unit) := do
  match ← perform (.wait child .block) with
  | .error errno => return .error (.system errno)
  | .ok report =>
    match WaitStatus.ofReport report with
    | .error errno => return .error (.system errno)
    | .ok (.signaled signal) => return .error (.killed plan.program signal)
    | .ok _ => return .ok ()

def startStage (stage : Stage) (input : Descriptor) (scheduling : Scheduling) :
    Action (Except RunError Descriptor) := do
  match ExecPlan.ofStage stage with
  | .error error => return .error error
  | .ok plan =>
    match ← perform .pipe with
    | .error errno => return .error (.system errno)
    | .ok (readEnd, writeEnd) =>
      match ← spawn plan input writeEnd with
      | .error error =>
        closeAll [writeEnd, readEnd]
        return .error error
      | .ok child =>
        closeAll [writeEnd]
        if scheduling = .concurrent then return .ok readEnd
        match ← awaitStage plan child with
        | .ok () => return .ok readEnd
        | .error error =>
          closeAll [readEnd]
          return .error error

/-- Becomes the last program of a pipeline. If that fails, standard output is put back before the
message is written, provided that it could be saved. -/
def execInPlace (plan : ExecPlan) (input output : Descriptor) : Action Errno := do
  let saved ← perform (.duplicateFrom standardOutput 3)
  let failure ← plan.execWith input output
  if let .ok copy := saved then
    let _ ← perform (.duplicateTo copy standardOutput)
    closeAll [copy]
  announceNotFound failure.mortal
  return failure.errno

inductive PipelineFailure
  | aborted
  | earlier (error : RunError)
  | final (error : RunError)
deriving Repr, DecidableEq

namespace PipelineFailure

def errno : PipelineFailure → Errno
  | aborted => .canceled
  | earlier error | final error => error.errno

end PipelineFailure

namespace Pipeline

/-- Starts the earlier stages. `carried` is the read end that the next stage reads, if a stage has
been started already. -/
def startEarlier (input : Descriptor) (flags : Flags) (scheduling : Scheduling) :
    Option Descriptor → List Stage → Action (Except (PipelineFailure × Flags) (Option Descriptor))
  | carried, [] => return .ok carried
  | carried, stage :: rest => do
    if flags.error then
      closeAll carried.toList
      return .error (.aborted, flags)
    match ← startStage stage (carried.getD input) scheduling with
    | .ok readEnd =>
      closeAll carried.toList
      startEarlier input flags scheduling (some readEnd) rest
    | .error error =>
      announceNotFound false
      closeAll carried.toList
      return .error (.earlier error, { flags with error := true })

/-- Becomes the last program of a pipeline. Returns why it could not, after telling the user. -/
def becomeLast (pipeline : Pipeline) (input output : Descriptor) : Action RunError := do
  match ExecPlan.ofStage pipeline.last with
  | .ok plan =>
    let errno ← execInPlace plan input output
    return .exec plan.program errno
  | .error error =>
    announceNotFound false
    return error

def run (pipeline : Pipeline) (input output : Descriptor) (flags : Flags)
    (scheduling : Scheduling) : Action (PipelineFailure × Flags) := do
  match ← startEarlier input flags scheduling none pipeline.earlier with
  | .error failure => return failure
  | .ok carried =>
    let error ← pipeline.becomeLast (carried.getD input) output
    closeAll carried.toList
    return (.final error, { flags with error := true })

end Pipeline

end PipelineShell
