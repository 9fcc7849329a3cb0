import PipelineShell.Proofs.Interpreter.Frame

namespace PipelineShell

open PipelineShell.Action

variable {events : List Event}

def ExitCodesFit (events : List Event) : Prop :=
  ∀ pid mode code, .answered (.wait pid mode) (.ok (.exited code)) ∈ events → code ≤ 255

theorem ExitCodesFit.append_iff {first second : List Event} :
    ExitCodesFit (first ++ second) ↔ ExitCodesFit first ∧ ExitCodesFit second := by
  simp [ExitCodesFit, or_imp, forall_and]

theorem WaitStatus.statusCode_le {report : ChildReport} {status : WaitStatus}
    (decoded : ofReport report = .ok status) (fits : ∀ code, report = .exited code → code ≤ 255) :
    status.statusCode ≤ 255 := by
  cases report with
  | running => cases decoded; decide
  | exited code => cases decoded; exact fits code rfl
  | killed number =>
    rw [ofReport_killed] at decoded
    split at decoded
    next named => cases decoded; simp only [statusCode]; omega
    next => cases decoded

namespace Pipeline

theorem awaitJob_finished {channel : Channel} {child : Int} {status : WaitStatus}
    (run : Runs (awaitJob channel child) events (.value (.ok (.finished status)))) :
    ∃ report, .answered (.wait child .block) (.ok report) ∈ events ∧
      WaitStatus.ofReport report = .ok status := by
  obtain ⟨closed, awaiting, answer, reply, rfl, -, same⟩ := awaitJob_parts run
  rcases reply with errno | report
  · cases same
  · refine ⟨report, by simp, ?_⟩
    cases decoded : WaitStatus.ofReport report with
    | error errno => simp [judged, decoded] at same
    | ok found =>
      rw [judged_ok decoded] at same
      cases answer with
      | some errno => cases same
      | none =>
        cases same
        rfl

theorem runAsJob_finished {pipeline : Pipeline} {input output : Descriptor} {background : Bool}
    {flags : Flags} {scheduling : Scheduling} {status : WaitStatus}
    (run : Runs (pipeline.runAsJob input output background flags scheduling) events
      (.value (.ok (.finished status)))) :
    ∃ pid report, .answered (.wait pid .block) (.ok report) ∈ events ∧
      WaitStatus.ofReport report = .ok status := by
  cases background with
  | true =>
    rcases runs_fork_iff.1 run with ⟨-, ⟨⟩⟩ | ⟨errno, rest, rfl, returns⟩ |
      ⟨pid, child, fate, rest, rfl, -, returns⟩
    · cases (runs_done_iff.1 returns).2
    · cases (runs_done_iff.1 returns).2
  | false =>
    rcases runInForeground_parts run with ⟨_, ⟨⟩, -⟩ | ⟨_, _, _, _, ⟨⟩, -⟩ |
      ⟨readEnd, writeEnd, pid, child, fate, rest, rfl, -, inParent⟩
    obtain ⟨report, member, decoded⟩ := awaitJob_finished inParent
    exact ⟨pid, report, by simp [member], decoded⟩

end Pipeline

theorem Statement.run_finished {statement : Statement} {flags : Flags} {settings : Settings}
    {status : WaitStatus}
    (run : Runs (statement.run flags settings) events (.value (.ok (.finished status)))) :
    ∃ pid report, .answered (.wait pid .block) (.ok report) ∈ events ∧
      WaitStatus.ofReport report = .ok status := by
  rcases run_parts run with ⟨error, ⟨⟩, -⟩ | ⟨_, _, _, job, _, rfl, -, -, runs_job, -⟩
  obtain ⟨pid, report, member, decoded⟩ := Pipeline.runAsJob_finished runs_job
  exact ⟨pid, report, by simp [member], decoded⟩

theorem Statement.exitStatus_le {statement : Statement} {flags : Flags} {settings : Settings}
    {result : StatementResult} (run : Runs (statement.run flags settings) events (.value result))
    (fit : ExitCodesFit events) : result.exitStatus ≤ 255 := by
  rcases result with error | status | errno | pid
  · exact Nat.le_of_ble_eq_true rfl
  · obtain ⟨pid, report, member, decoded⟩ := run_finished run
    have same : StatementResult.exitStatus (.ok (.finished status)) = status.statusCode := by
      cases status <;> rfl
    rw [same]
    exact WaitStatus.statusCode_le decoded fun code exited => fit pid .block code (exited ▸ member)
  · exact Nat.le_of_ble_eq_true rfl
  · exact Nat.le_of_ble_eq_true rfl

namespace Line

theorem Performs.exitStatus_le {settings : Settings} {flags : Flags} {jobs jobs' : JobTable}
    {ran : List Ran} (performs : Performs settings flags jobs ran events jobs')
    (fit : ExitCodesFit events) : ∀ each ∈ ran, each.2.exitStatus ≤ 255 := by
  induction performs with
  | nil jobs => exact nofun
  | cons run told others ih =>
    simp only [ExitCodesFit.append_iff] at fit
    intro each member
    rcases List.mem_cons.1 member with rfl | member
    · exact Statement.exitStatus_le run fit.1.1
    · exact ih fit.2 each member

theorem statusAfter_le {ran : List Ran} {bound : Nat}
    (each_le : ∀ each ∈ ran, each.2.exitStatus ≤ bound) : statusAfter 0 ran ≤ bound := by
  unfold statusAfter
  cases found : ran.getLast? with
  | none => exact Nat.zero_le bound
  | some last => exact each_le last (List.mem_of_getLast? found)

theorem status_le {line line' : Line} {settings : Settings} {jobs jobs' : JobTable} {status : Nat}
    (run : Runs (line.run settings jobs) events (.value (status, line', jobs')))
    (fit : ExitCodesFit events) : status ≤ 255 := by
  cases failed : line.flags.error with
  | true =>
    simp only [Line.run, failed, if_true] at run
    obtain ⟨-, ⟨⟩⟩ := runs_done_iff.1 run
    decide
  | false =>
    rcases (runs_run_iff failed).1 run with ⟨ran, _, -, performs, same⟩ | ⟨_, ⟨⟩, -⟩
    cases same
    exact statusAfter_le (performs.exitStatus_le fit)

theorem exit_eq {line line' : Line} {settings : Settings} {jobs jobs' : JobTable} {status : Nat}
    (run : Runs (line.run settings jobs) events (.value (status, line', jobs'))) :
    line'.flags.exit = line.flags.exit := by
  rw [Line.run] at run
  split at run
  · obtain ⟨-, ⟨⟩⟩ := runs_done_iff.1 run
    rfl
  · rw [Runs.bind_value_iff (contained_runStatements ..)] at run
    obtain ⟨running, returning, progress, rfl, -, returns⟩ := run
    cases (runs_done_iff.1 returns).2
    cases progress.error <;> rfl

end Line

namespace Interpreter

inductive Upshot
  | unfinished
  | rejected
  | idle
  | ran (status : Nat)
deriving Repr, DecidableEq

def Upshot.status? : Upshot → Option Nat
  | unfinished | idle => none
  | rejected => some 2
  | ran status => some status

def asksToLeave (text : Word) : Bool :=
  (Line.parse {} text).error?.isNone && (Line.parse {} text).line.flags.exit

def parsedText (text : Word) : String :=
  "parsed " ++ toString (Line.parse {} text).line.statements.length ++ " statement(s)"

/-- How executing a text comes out. The answer is false if the text asks to leave. -/
inductive Executes (interpreter : Interpreter) (text : Word) :
    List Event → Upshot → Outcome (Interpreter × Bool) → Prop
  | unfinished {events : List Event} {fate : Fate}
      (run : Runs (interpreter.execute text) events (.ended fate)) :
      Executes interpreter text events .unfinished (.ended fate)
  | rejected {error : ParseError} {telling : List Event}
      (rejects : (Line.parse {} text).error? = some error)
      (tells : Runs (interpreter.settings.console.error ("syntax error: " ++ error.message))
        telling (.value ())) :
      Executes interpreter text telling .rejected
        (.value ({ interpreter with line := {}, lastStatus := 2 }, true))
  | idle {logging : List Event}
      (accepts : (Line.parse {} text).error? = none)
      (empty : (Line.parse {} text).line.statements = [])
      (logs : Runs (interpreter.settings.console.log (parsedText text)) logging (.value ())) :
      Executes interpreter text logging .idle
        (.value ({ interpreter with line := (Line.parse {} text).line }, !asksToLeave text))
  | ran {status : Nat} {line : Line} {jobs : JobTable} {logging running : List Event}
      (accepts : (Line.parse {} text).error? = none)
      (some : (Line.parse {} text).line.statements ≠ [])
      (logs : Runs (interpreter.settings.console.log (parsedText text)) logging (.value ()))
      (run : Runs ((Line.parse {} text).line.run interpreter.settings interpreter.jobs) running
        (.value (status, line, jobs))) :
      Executes interpreter text (logging ++ running) (.ran status)
        (.value ({ interpreter with line, jobs, lastStatus := status }, !asksToLeave text))

variable {interpreter next : Interpreter} {text : Word} {upshot : Upshot}

theorem asksToLeave_of_accepts (accepts : (Line.parse {} text).error? = none) :
    asksToLeave text = (Line.parse {} text).line.flags.exit := by
  simp [asksToLeave, accepts]

theorem runs_execute {outcome : Outcome (Interpreter × Bool)}
    (run : Runs (interpreter.execute text) events outcome) :
    ∃ upshot, Executes interpreter text events upshot outcome := by
  cases outcome with
  | ended fate => exact ⟨.unfinished, .unfinished run⟩
  | value result =>
    rw [execute_eq] at run
    dsimp only at run
    split at run
    next error rejects =>
      rw [Runs.bind_value_iff (Console.contained_error ..)] at run
      obtain ⟨telling, returning, _, rfl, tells, returns⟩ := run
      obtain ⟨rfl, ⟨⟩⟩ := runs_done_iff.1 returns
      rw [List.append_nil]
      exact ⟨.rejected, .rejected rejects tells⟩
    next accepts =>
      have leaves := asksToLeave_of_accepts accepts
      rw [Runs.bind_value_iff (Console.contained_log ..)] at run
      obtain ⟨logging, rest, _, rfl, logs, run⟩ := run
      split at run
      next empty =>
        obtain ⟨rfl, ⟨⟩⟩ := runs_done_iff.1 run
        rw [← leaves, List.append_nil]
        exact ⟨.idle, .idle accepts (by simpa using empty) logs⟩
      next some =>
        rw [Runs.bind_value_iff (Line.contained_run ..)] at run
        obtain ⟨running, returning, ⟨status, line, jobs⟩, rfl, run, returns⟩ := run
        obtain ⟨rfl, ⟨⟩⟩ := runs_done_iff.1 returns
        rw [Line.exit_eq run, ← leaves, List.append_nil]
        exact ⟨.ran status, .ran accepts (by simpa using some) logs run⟩

namespace Executes

theorem run {outcome : Outcome (Interpreter × Bool)}
    (executes : Executes interpreter text events upshot outcome) :
    Runs (interpreter.execute text) events outcome := by
  cases executes with
  | unfinished run => exact run
  | rejected rejects tells =>
    rw [← List.append_nil events, execute_eq]
    simp only [rejects]
    exact tells.bind (Console.contained_error ..) (.done _)
  | idle accepts empty logs =>
    rw [← List.append_nil events, execute_eq, asksToLeave_of_accepts accepts]
    simp only [accepts]
    refine logs.bind (Console.contained_log ..) ?_
    simpa [empty] using Runs.done _
  | @ran _ _ _ _ running accepts some logs run =>
    rw [execute_eq, asksToLeave_of_accepts accepts]
    simp only [accepts]
    refine logs.bind (Console.contained_log ..) ?_
    rw [if_neg (by simpa using some), ← Line.exit_eq run, ← List.append_nil running]
    exact run.bind (Line.contained_run ..) (.done _)

theorem goesOn_eq {goesOn : Bool}
    (executes : Executes interpreter text events upshot (.value (next, goesOn))) :
    goesOn = !asksToLeave text := by
  cases executes with
  | rejected rejects => simp [asksToLeave, rejects]
  | idle | ran => rfl

theorem lastStatus_eq {goesOn : Bool}
    (executes : Executes interpreter text events upshot (.value (next, goesOn))) :
    next.lastStatus = upshot.status?.getD interpreter.lastStatus := by
  cases executes <;> rfl

theorem room_le {goesOn : Bool}
    (executes : Executes interpreter text events upshot (.value (next, goesOn))) :
    interpreter.jobs.room ≤ next.jobs.room + (children events).length := by
  cases executes with
  | rejected | idle => exact Nat.le_add_right ..
  | @ran _ _ _ logging running accepts some logs run =>
    have used := Line.room_le run
    rw [children_append, List.length_append]
    dsimp only
    omega

theorem status_le {outcome : Outcome (Interpreter × Bool)}
    (executes : Executes interpreter text events upshot outcome) (fit : ExitCodesFit events) :
    ∀ status ∈ upshot.status?, status ≤ 255 := by
  cases executes with
  | unfinished | idle => exact nofun
  | rejected =>
    rintro _ ⟨⟩
    decide
  | ran accepts some logs run =>
    rintro _ ⟨⟩
    exact Line.status_le run (ExitCodesFit.append_iff.1 fit).2

end Executes

end Interpreter

end PipelineShell
