import PipelineShell.Proofs.Interpreter.Joining
import PipelineShell.Proofs.Job.Children

namespace PipelineShell.Interpreter

open PipelineShell.Action JobTable

variable {interpreter next : Interpreter} {kin : List Int} {events : List Event}

inductive Duty
  | report
  | execute (text : Word)

def attend (interpreter : Interpreter) : Duty → Action Interpreter
  | .report => interpreter.reportFinishedJobs
  | .execute text => interpreter.execute text >>= fun left => pure left.1

def serve : Interpreter → List Duty → Action Interpreter
  | interpreter, [] => return interpreter
  | interpreter, duty :: rest => do serve (← interpreter.attend duty) rest

/-- On its way through its duties, after these events, the interpreter has this job table when a
report is over, or when the first statements of a line are. -/
inductive Passes : Interpreter → List Duty → List Event → JobTable → Prop
  | report {interpreter ready : Interpreter} {duties : List Duty} {events : List Event}
    (run : Runs interpreter.reportFinishedJobs events (.value ready)) :
    Passes interpreter (.report :: duties) events ready.jobs
  | statements {interpreter : Interpreter} {text : Word} {duties : List Duty} {count : Nat}
    {logging running : List Event} {progress : Line.Progress}
    (accepts : (Line.parse {} text).error? = none)
    (logs : Runs (interpreter.settings.console.log (parsedText text)) logging (.value ()))
    (run : Runs (Line.runStatements interpreter.settings (Line.parse {} text).line.flags
        { jobs := interpreter.jobs } ((Line.parse {} text).line.statements.take count)) running
      (.value progress)) :
    Passes interpreter (.execute text :: duties) (logging ++ running) progress.jobs
  | later {interpreter next : Interpreter} {duty : Duty} {duties : List Duty}
    {attending events : List Event} {table : JobTable}
    (run : Runs (interpreter.attend duty) attending (.value next))
    (passes : Passes next duties events table) :
    Passes interpreter (duty :: duties) (attending ++ events) table

theorem lasting_attend (interpreter : Interpreter) (duty : Duty) :
    (interpreter.attend duty).Lasting interpreter.jobs.room := by
  cases duty with
  | report => exact lasting_reportFinishedJobs _
  | execute text => exact (lasting_execute ..).bind fun _ _ _ => lasting_done _

theorem runs_serve_cons_iff {duty : Duty} {duties : List Duty} :
    Runs (interpreter.serve (duty :: duties)) events (.value next) ↔
      ∃ attending rest ready, events = attending ++ rest ∧
        Runs (interpreter.attend duty) attending (.value ready) ∧
        Runs (ready.serve duties) rest (.value next) :=
  Runs.bind_value_iff (lasting_attend ..).contained

theorem reportFinishedJobs_keeps
    (run : Runs interpreter.reportFinishedJobs events (.value next))
    (tracks : KeepsTrack kin events) :
    Keeps kin events interpreter.jobs.jobs next.jobs.jobs := by
  have lasting_reap := @JobTable.lasting_reap 0 interpreter.jobs interpreter.settings.console
  rw [reportFinishedJobs, Runs.bind_value_iff lasting_reap.contained] at run
  obtain ⟨reaping, _, ⟨left, jobs⟩, rfl, reaps, run⟩ := run
  have lasting_report := @lasting_reportJobs 0 interpreter.settings.console left
  rw [Runs.bind_value_iff lasting_report.contained] at run
  obtain ⟨telling, _, _, rfl, tells, returns⟩ := run
  obtain ⟨rfl, ⟨⟩⟩ := runs_done_iff.1 returns
  have quiet := quiet_of_messages (tells.only (calls_reportJobs ..))
  obtain ⟨fewer, covered, gone⟩ := reap_keeps reaps (keepsTrack_append.1 tracks).1
  have left_eq : uncollected kin (reaping ++ (telling ++ [])) = uncollected kin reaping := by
    simp [quiet.uncollected_eq]
  refine ⟨left_eq ▸ fewer, left_eq ▸ covered, fun job member => ?_⟩
  exact (gone job member).imp id fun gone => gone.mono (List.subset_append_left ..)

theorem execute_keeps {text : Word} {goesOn : Bool}
    (run : Runs (interpreter.execute text) events (.value (next, goesOn))) :
    interpreter.jobs.jobs ⊆ next.jobs.jobs ∧
      ∀ kin, KeepsTrack kin events → interpreter.jobs.Covers kin →
        next.jobs.Covers (uncollected kin events) := by
  obtain ⟨upshot, executes⟩ := runs_execute run
  cases executes with
  | rejected rejects tells =>
    refine ⟨List.Subset.refl _, fun kin tracks covers => ?_⟩
    rwa [(quiet_of_warnings (tells.only (Console.calls_error ..))).uncollected_eq]
  | idle accepts empty logs =>
    refine ⟨List.Subset.refl _, fun kin tracks covers => ?_⟩
    rwa [(quiet_of_warnings (logs.only (Console.calls_log ..))).uncollected_eq]
  | ran accepts some logs line_runs =>
    have quiet := quiet_of_warnings (logs.only (Console.calls_log ..))
    rw [line_run_eq _ _ (Grammar.error_parse text),
      Runs.bind_value_iff (Line.contained_runStatements ..)] at line_runs
    obtain ⟨running, _, progress, rfl, performs, returns⟩ := line_runs
    obtain ⟨rfl, ⟨⟩⟩ := runs_done_iff.1 returns
    constructor
    · rcases Line.runs_runStatements_iff.1 performs with ⟨ran, _, -, added, same⟩ | ⟨_, ⟨⟩, -⟩
      cases same
      exact added.gains.jobs_eq ▸ List.subset_append_left ..
    · intro kin tracks covers
      rw [List.append_nil, keepsTrack_append, quiet.uncollected_eq] at tracks
      rw [List.append_nil, uncollected_append, quiet.uncollected_eq]
      exact Line.covers_runStatements performs tracks.2 covers

theorem attend_keeps {duty : Duty} (run : Runs (interpreter.attend duty) events (.value next))
    (tracks : KeepsTrack kin events) :
    (interpreter.jobs.Covers kin → next.jobs.Covers (uncollected kin events)) ∧
      ∀ job ∈ interpreter.jobs.jobs, job ∈ next.jobs.jobs ∨ Gone events job := by
  cases duty with
  | report =>
    have keeps := reportFinishedJobs_keeps run tracks
    exact ⟨keeps.covers, keeps.gone⟩
  | execute text =>
    rw [attend, Runs.bind_value_iff (lasting_execute ..).contained] at run
    obtain ⟨executing, _, ⟨left, goesOn⟩, rfl, run, returns⟩ := run
    obtain ⟨rfl, ⟨⟩⟩ := runs_done_iff.1 returns
    rw [List.append_nil] at tracks ⊢
    obtain ⟨keeps, covers⟩ := execute_keeps run
    exact ⟨covers kin tracks, fun job member => .inl (keeps member)⟩

theorem Passes.covers {duties : List Duty} {table : JobTable}
    (passes : Passes interpreter duties events table) (tracks : KeepsTrack kin events)
    (covers : interpreter.jobs.Covers kin) : table.Covers (uncollected kin events) := by
  induction passes generalizing kin with
  | report run => exact (reportFinishedJobs_keeps run tracks).covers covers
  | statements accepts logs run =>
    have quiet := quiet_of_warnings (logs.only (Console.calls_log ..))
    rw [keepsTrack_append, quiet.uncollected_eq] at tracks
    rw [uncollected_append, quiet.uncollected_eq]
    exact Line.covers_runStatements run tracks.2 covers
  | later run passes ih =>
    obtain ⟨first, second⟩ := keepsTrack_append.1 tracks
    rw [uncollected_append]
    exact ih second ((attend_keeps run first).1 covers)

theorem serve_keeps {duties : List Duty}
    (run : Runs (interpreter.serve duties) events (.value next)) (tracks : KeepsTrack kin events) :
    (interpreter.jobs.Covers kin → next.jobs.Covers (uncollected kin events)) ∧
      ∀ job ∈ interpreter.jobs.jobs, job ∈ next.jobs.jobs ∨ Gone events job := by
  induction duties generalizing interpreter kin events with
  | nil =>
    obtain ⟨rfl, ⟨⟩⟩ := runs_done_iff.1 run
    exact ⟨id, fun job member => .inl member⟩
  | cons duty duties ih =>
    obtain ⟨attending, rest, ready, rfl, attends, serves⟩ := runs_serve_cons_iff.1 run
    obtain ⟨first, second⟩ := keepsTrack_append.1 tracks
    obtain ⟨covers, gone⟩ := attend_keeps attends first
    obtain ⟨covers', gone'⟩ := ih serves second
    rw [uncollected_append]
    refine ⟨fun covered => covers' (covers covered), fun job member => ?_⟩
    rcases gone job member with stays | leaves
    · exact (gone' job stays).imp id fun leaves => leaves.mono (List.subset_append_right ..)
    · exact .inr (leaves.mono (List.subset_append_left ..))

theorem attend_room_le {duty : Duty} (run : Runs (interpreter.attend duty) events (.value next)) :
    interpreter.jobs.room ≤ next.jobs.room + (children events).length := by
  cases duty with
  | report =>
    rw [(runs_reportFinishedJobs run).2]
    exact Nat.le_add_right ..
  | execute text =>
    rw [attend, Runs.bind_value_iff (lasting_execute ..).contained] at run
    obtain ⟨executing, _, ⟨left, goesOn⟩, rfl, run, returns⟩ := run
    obtain ⟨rfl, ⟨⟩⟩ := runs_done_iff.1 returns
    obtain ⟨upshot, executes⟩ := runs_execute run
    rw [List.append_nil]
    exact executes.room_le

theorem lasting_serve (interpreter : Interpreter) (duties : List Duty) :
    (interpreter.serve duties).Lasting interpreter.jobs.room := by
  induction duties generalizing interpreter with
  | nil => exact lasting_done _
  | cons duty duties ih =>
    refine (lasting_attend ..).bind fun attending ready attends => ?_
    have used := attend_room_le attends
    exact (ih ready).mono (by omega)

/-- Whatever texts an interpreter executes, with whatever reports between them: when a report or a
statement is over, every child that is not collected has a job in the table. A statement in the
foreground forks one child at most and waits for it, however it comes out. A job leaves the table
only when the poll for its child has collected it or is answered that there is none. The interpreter
ends in the middle of this only if it gives up: because a message cannot be written, or because
there is no number left for a job, whose place no other job ever takes. -/
theorem loses_no_child (settings : Settings) (user : String) :
    (∀ duties events table, Passes { settings, user } duties events table → KeepsTrack [] events →
      table.Covers (uncollected [] events)) ∧
    (∀ duties events next, Runs (serve { settings, user } duties) events (.value next) →
      KeepsTrack [] events → next.jobs.Covers (uncollected [] events)) ∧
    (∀ (statement : Statement) flags settings events result, statement.background = false →
      Runs (statement.run flags settings) events (.value result) →
      WaitsForChild events ∧ (children events).length ≤ 1 ∧
        ∀ kin, KeepsTrack kin events → uncollected kin events = kin) ∧
    (∀ (interpreter : Interpreter) duties events next kin,
      Runs (interpreter.serve duties) events (.value next) → KeepsTrack kin events →
      ∀ job ∈ interpreter.jobs.jobs, job ∈ next.jobs.jobs ∨ Gone events job) ∧
    ∀ (interpreter : Interpreter) duties events fate,
      Runs (interpreter.serve duties) events (.ended fate) →
      fate = .pending ∨ fate = .exited panicStatus ∧ GivesUp interpreter.jobs.room events := by
  refine ⟨fun duties events table passes tracks => ?_, fun duties events next run tracks => ?_,
    fun statement flags settings events result foreground run => ?_,
    fun interpreter duties events next kin run tracks => (serve_keeps run tracks).2,
    fun interpreter duties events fate run => (lasting_serve ..).ended run⟩
  · exact passes.covers tracks (covers_nil _)
  · exact (serve_keeps run tracks).1 (covers_nil _)
  · have waits := statement.waitsForChild foreground run
    exact ⟨waits, waits.length_children_le, fun kin tracks => waits.uncollected_eq tracks⟩

def backgroundStatement : Statement := ⟨⟨[], ⟨[['b']]⟩⟩, none, none, true⟩

def withJob : Interpreter where
  user := ""
  line := ⟨[backgroundStatement], {}⟩
  jobs := { jobs := [⟨1, 7, backgroundStatement.text⟩], nextId := 2 }

def starting : List Event :=
  [.answered .flush (.ok ()), .forked 7 [] .pending, .answered (.print "[1] 7\n") (.ok ())]

theorem runs_starting : Runs (attend { user := "" } (.execute "b&".toList)) starting
    (.value withJob) := by
  have parsed : Line.parse {} "b&".toList = ⟨withJob.line, none⟩ := by decide +kernel
  have forks : Runs (backgroundStatement.run {} {})
      [.answered .flush (.ok ()), .forked 7 [] .pending] (.value (.ok (.background 7))) :=
    .call _ rfl <| .fork 7 (.pending _ _) (.done _)
  have told : Runs (Line.record {} backgroundStatement {} (.ok (.background 7)))
      [.answered (.print "[1] 7\n") (.ok ())] (.value withJob.jobs) :=
    (Console.runs_print _).bind (Console.contained_print _) (.done _)
  have performs : Line.Performs {} {} {} [(backgroundStatement, .ok (.background 7))] starting
      withJob.jobs :=
    .cons forks told (.nil _)
  have run : Runs (Line.run withJob.line {} {}) starting
      (.value (0, withJob.line, withJob.jobs)) := by
    refine (Line.runs_run_iff rfl).2 (.inl ⟨_, _, ?_, performs, rfl⟩)
    exact Line.upToFailure_cons_iff.2 ⟨_, [], rfl, Line.upToFailure_nil_iff.2 rfl⟩
  have line_eq : (Line.parse {} "b&".toList).line = withJob.line := by rw [parsed]
  have executes := (@Executes.ran { user := "" } "b&".toList 0 withJob.line withJob.jobs [] _
    (by rw [parsed]) (by rw [line_eq]; exact List.cons_ne_nil _ _) (.done ())
    (by rw [line_eq]; exact run)).run
  have attends : Runs (attend { user := "" } (.execute "b&".toList)) _ (.value withJob) :=
    executes.bind (lasting_execute ..).contained (.done _)
  simpa using attends

theorem loses_no_child_running :
    ∃ events table,
      Passes { user := "" } [.execute "b&".toList, .report] events table ∧ KeepsTrack [] events ∧
        uncollected [] events = [7] ∧ table.Covers (uncollected [] events) := by
  have reports : Runs withJob.reportFinishedJobs [.answered (.wait 7 .poll) (.ok .running)]
      (.value withJob) := by
    refine (runs_perform_bind_iff rfl).2 (.inr ⟨.ok .running, [], rfl, ?_⟩)
    exact .done _
  have passes : Passes { user := "" } [.execute "b&".toList, .report] _ withJob.jobs :=
    .later runs_starting (.report reports)
  have tracks : KeepsTrack [] (starting ++ [.answered (.wait 7 .poll) (.ok .running)]) :=
    ⟨trivial, List.not_mem_nil, trivial, nofun, trivial⟩
  exact ⟨_, _, passes, tracks, rfl, (loses_no_child {} "").1 _ _ _ passes tracks⟩

end PipelineShell.Interpreter
