import PipelineShell.Interpreter
import PipelineShell.Proofs.Job.Children

namespace PipelineShell

open PipelineShell.Action

variable {descriptor : Descriptor} {events : List Event}

section

variable {α : Type} (not_output : descriptor ≠ standardOutput)
  (not_error : descriptor ≠ standardError)
  (console : Console)

include not_output not_error

theorem avoids_of_messages {action : Action α} (calls : action.Calls Call.IsMessage) :
    action.Avoids descriptor fun _ => True :=
  calls.avoids fun _ message => by
    cases message with
    | warning => simpa [Call.names] using not_error.symm
    | print => simpa [Call.names] using not_output.symm

theorem Console.avoids_error (message : String) :
    (console.error message).Avoids descriptor fun _ => True :=
  avoids_of_messages not_output not_error ((calls_error ..).mono fun _ => .of_warning)

theorem Console.avoids_log (message : String) :
    (console.log message).Avoids descriptor fun _ => True :=
  avoids_of_messages not_output not_error ((calls_log ..).mono fun _ => .of_warning)

end

theorem Pipeline.ignores_runAsJob (pipeline : Pipeline) (input output : Descriptor)
    (background : Bool) (flags : Flags) (scheduling : Scheduling) :
    (pipeline.runAsJob input output background flags scheduling).Ignores descriptor
      fun _ => True := by
  cases background with
  | true => exact ignores_fork_bind (fun _ => trivial) fun _ => trivial
  | false =>
    refine Channel.avoids_create.ignores.bind fun created given => ?_
    cases created with
    | error errno => trivial
    | ok channel =>
      obtain ⟨watcher, reporter⟩ := given channel rfl
      apply ignores_fork_bind
      · intro errno
        have other : descriptor ∉ [channel.watcher, channel.reporter] := by
          simp [watcher.symm, reporter.symm]
        exact (avoids_closeAll other).ignores.bind fun _ _ => trivial
      · intro pid
        exact (avoids_awaitJob watcher.symm reporter.symm).ignores

theorem Statement.ignores_run (not_output : descriptor ≠ standardOutput)
    (not_error : descriptor ≠ standardError) (statement : Statement) (flags : Flags)
    (settings : Settings) :
    (statement.run flags settings).Ignores descriptor fun _ => True := by
  refine (Redirection.avoids_openFor statement).ignores.bind fun opened given => ?_
  cases opened with
  | error error => trivial
  | ok redirection =>
    obtain ⟨not_input, not_output'⟩ := given redirection rfl
    have closes := (Redirection.avoids_close not_input not_output').ignores
    refine (Console.avoids_log not_output not_error ..).ignores.bind fun _ _ => ?_
    refine ⟨by simpa [Call.names] using not_output.symm, fun flushed _ _ => ?_⟩
    cases flushed with
    | error cause => exact closes.bind fun _ _ => trivial
    | ok _ => exact (Pipeline.ignores_runAsJob ..).bind fun _ _ => closes.bind fun _ _ => trivial

namespace Line

theorem ignores_runStatements (not_output : descriptor ≠ standardOutput)
    (not_error : descriptor ≠ standardError) (settings : Settings) (flags : Flags)
    (progress : Progress) (statements : List Statement) :
    (runStatements settings flags progress statements).Ignores descriptor fun _ => True := by
  induction statements generalizing progress with
  | nil => trivial
  | cons statement rest ih =>
    refine (statement.ignores_run not_output not_error ..).bind fun result _ => ?_
    refine (avoids_of_messages not_output not_error (calls_record ..)).ignores.bind fun _ _ => ?_
    dsimp only
    split
    · trivial
    · exact ih _

theorem ignores_run (not_output : descriptor ≠ standardOutput)
    (not_error : descriptor ≠ standardError) (line : Line) (settings : Settings)
    (jobs : JobTable) : (line.run settings jobs).Ignores descriptor fun _ => True := by
  unfold run
  split
  · trivial
  · exact (ignores_runStatements not_output not_error ..).bind fun _ _ => trivial

end Line

namespace Interpreter

theorem execute_eq (interpreter : Interpreter) (text : Word) :
    interpreter.execute text =
      match (Line.parse {} text).error? with
      | some error => do
        interpreter.settings.console.error ("syntax error: " ++ error.message)
        return ({ interpreter with line := {}, lastStatus := syntaxErrorStatus }, true)
      | none => do
        let line := (Line.parse {} text).line
        interpreter.settings.console.log
          ("parsed " ++ toString line.statements.length ++ " statement(s)")
        if line.statements.isEmpty then return ({ interpreter with line }, !line.flags.exit)
        let (status, line, jobs) ← line.run interpreter.settings interpreter.jobs
        return ({ interpreter with line, jobs, lastStatus := status }, !line.flags.exit) := rfl

theorem lasting_execute (interpreter : Interpreter) (text : Word) :
    (interpreter.execute text).Lasting interpreter.jobs.room := by
  rw [execute_eq]
  dsimp only
  split
  · exact (Console.lasting_error ..).bind fun _ _ _ => lasting_done _
  · refine (Console.lasting_log ..).bind fun logging _ logs => ?_
    split
    · exact lasting_done _
    · refine Lasting.bind ((Line.lasting_run ..).mono (Nat.sub_le ..)) fun _ _ _ => lasting_done _

theorem ignores_execute (not_output : descriptor ≠ standardOutput)
    (not_error : descriptor ≠ standardError) (interpreter : Interpreter) (text : Word) :
    (interpreter.execute text).Ignores descriptor fun _ => True := by
  rw [execute_eq]
  dsimp only
  split
  · exact (Console.avoids_error not_output not_error ..).ignores.bind fun _ _ => trivial
  · refine (Console.avoids_log not_output not_error ..).ignores.bind fun _ _ => ?_
    split
    · trivial
    · exact (Line.ignores_run not_output not_error ..).bind fun _ _ => trivial

end Interpreter

namespace JobTable

theorem avoids_reap (not_output : descriptor ≠ standardOutput)
    (not_error : descriptor ≠ standardError) (table : JobTable) (console : Console) :
    (table.reap console).Avoids descriptor fun _ => True := by
  have tells (job : Job) (status : Except Errno WaitStatus) :
      (complaint console job status).Avoids descriptor fun _ => True := by
    unfold complaint
    split
    · exact Console.avoids_error not_output not_error ..
    · trivial
    · trivial
  have polls (job : Job) : (poll job).Avoids descriptor fun _ => True := by
    apply avoids_perform_bind rfl
    intro reply _
    cases reply <;> trivial
  have polls_all (jobs : List Job) : (pollAll console jobs).Avoids descriptor fun _ => True := by
    induction jobs with
    | nil => trivial
    | cons job rest ih =>
      rw [pollAll_cons]
      exact (polls job).bind fun _ _ => (tells job _).bind fun _ _ => ih.bind fun _ _ => trivial
  exact (polls_all table.jobs).bind fun _ _ => trivial

end JobTable

namespace Interpreter

theorem lasting_reportJobs {room : Nat} (console : Console) (left : List (Job × WaitStatus)) :
    (reportJobs console left).Lasting room := by
  induction left generalizing room with
  | nil => exact lasting_done _
  | cons entry rest ih =>
    exact (Console.lasting_log ..).bind fun _ _ _ => (Console.lasting_print _).bind fun _ _ _ => ih

theorem calls_reportJobs (console : Console) (left : List (Job × WaitStatus)) :
    (reportJobs console left).Calls Call.IsMessage := by
  induction left with
  | nil => trivial
  | cons entry rest ih =>
    exact ((Console.calls_log ..).mono fun _ => .of_warning).bind fun _ =>
      (Console.calls_print _).bind fun _ => ih

theorem lasting_reportFinishedJobs {room : Nat} (interpreter : Interpreter) :
    interpreter.reportFinishedJobs.Lasting room :=
  (JobTable.lasting_reap ..).bind fun _ _ _ => (lasting_reportJobs ..).bind fun _ _ _ =>
    lasting_done _

theorem contained_reportFinishedJobs (interpreter : Interpreter) :
    interpreter.reportFinishedJobs.Contained :=
  (@lasting_reportFinishedJobs 0 interpreter).contained

theorem avoids_reportFinishedJobs (not_output : descriptor ≠ standardOutput)
    (not_error : descriptor ≠ standardError) (interpreter : Interpreter) :
    interpreter.reportFinishedJobs.Avoids descriptor fun _ => True :=
  (JobTable.avoids_reap not_output not_error ..).bind fun _ _ =>
    (avoids_of_messages not_output not_error (calls_reportJobs ..)).bind fun _ _ => trivial

theorem runs_reportFinishedJobs {interpreter ready : Interpreter}
    (run : Runs interpreter.reportFinishedJobs events (.value ready)) :
    ready = { interpreter with jobs := ready.jobs } ∧ ready.jobs.room = interpreter.jobs.room := by
  have reaps := @JobTable.lasting_reap 0 interpreter.jobs interpreter.settings.console
  rw [reportFinishedJobs, Runs.bind_value_iff reaps.contained] at run
  obtain ⟨reaping, _, ⟨left, jobs⟩, rfl, reap, run⟩ := run
  have reports := @lasting_reportJobs 0 interpreter.settings.console left
  rw [Runs.bind_value_iff reports.contained] at run
  obtain ⟨telling, _, _, rfl, -, returns⟩ := run
  cases (runs_done_iff.1 returns).2
  obtain ⟨_, -, -, -, -, nextId⟩ := JobTable.runs_reap reap
  exact ⟨rfl, by rw [JobTable.room, JobTable.room, nextId]⟩

end Interpreter

end PipelineShell
