import PipelineShell.Job.Run
import PipelineShell.Proofs.Pipeline.Failure
import PipelineShell.Proofs.Pipeline.Frame

namespace PipelineShell

open PipelineShell.Action

variable {events : List Event} {input output : Descriptor} {table : Table}
  {pipeline : Pipeline} {scheduling : Scheduling} {flags : Flags}

inductive StageError (scheduling : Scheduling) (stage : Stage) (events : List Event) : Errno → Prop
  | unusable {error : RunError} (h : stage.Unusable error) :
    StageError scheduling stage events .invalid
  | refused {program : Word} {arguments : List String} {pid : Int} {child : List Event}
    {fate : Fate} {input output : Descriptor} {errno : Errno} (asks : stage.Asks program arguments)
    (forked : children events = [⟨pid, child, fate⟩])
    (refused : Refused input output child errno) : StageError scheduling stage events errno
  | killed {pid : Int} {report : ChildReport} {signal : Signal}
    (sequential : scheduling = .sequential)
    (waited : .answered (.wait pid .block) (.ok report) ∈ events)
    (decoded : WaitStatus.ofReport report = .ok (.signaled signal)) :
    StageError scheduling stage events .noChild
  | noPipe {errno : Errno} (failed : .answered .pipe (.error errno) ∈ events) :
    StageError scheduling stage events errno
  | noFork {errno : Errno} (failed : .answered .fork (.error errno) ∈ events) :
    StageError scheduling stage events errno
  | waitFailed {pid : Int} {errno : Errno} (sequential : scheduling = .sequential)
    (failed : .answered (.wait pid .block) (.error errno) ∈ events) :
    StageError scheduling stage events errno
  | unknownEnd {pid : Int} {report : ChildReport} {errno : Errno}
    (sequential : scheduling = .sequential)
    (waited : .answered (.wait pid .block) (.ok report) ∈ events)
    (unknown : WaitStatus.ofReport report = .error errno) :
    StageError scheduling stage events errno

theorem Stage.Unusable.errno_eq {stage : Stage} {error : RunError} (h : stage.Unusable error) :
    error.errno = .invalid := by
  cases h <;> rfl

theorem Fault.stageError {stage : Stage} {error : RunError}
    (fault : Fault scheduling stage events error) :
    StageError scheduling stage events error.errno := by
  cases fault with
  | unusable forked h => exact h.errno_eq ▸ .unusable h
  | noPipe forked failed => exact .noPipe failed
  | noFork forked failed => exact .noFork failed
  | refused asks forked other refused => exact .refused asks forked refused
  | waitFailed asks sequential forked failed => exact .waitFailed sequential failed
  | unknownEnd asks sequential forked waited unknown => exact .unknownEnd sequential waited unknown
  | killed asks sequential forked waited decoded => exact .killed sequential waited decoded

namespace Pipeline

inductive StartError (pipeline : Pipeline) (output : Descriptor) (flags : Flags)
    (scheduling : Scheduling) (events : List Event) : Errno → Prop
  | aborted (failed : flags.error = true) (several : pipeline.earlier ≠ []) (idle : events = []) :
    StartError pipeline output flags scheduling events .canceled
  | earlier {before after : List Stage} {stage : Stage} {parts : List (List Event)}
    {rest : List Event} {errno : Errno} (clear : flags.error = false)
    (at_stage : pipeline.earlier = before ++ stage :: after)
    (all : LaunchedAll scheduling before parts) (split : events = parts.flatten ++ rest)
    (error : StageError scheduling stage rest errno) :
    StartError pipeline output flags scheduling events errno
  | last_unusable {parts : List (List Event)} {rest : List Event} {error : RunError}
    (all : LaunchedAll scheduling pipeline.earlier parts) (split : events = parts.flatten ++ rest)
    (h : pipeline.last.Unusable error) :
    StartError pipeline output flags scheduling events .invalid
  | last_refused {parts : List (List Event)} {rest : List Event} {program : Word}
    {arguments : List String} {carried : Descriptor} {errno : Errno}
    (all : LaunchedAll scheduling pipeline.earlier parts) (split : events = parts.flatten ++ rest)
    (asks : pipeline.last.Asks program arguments) (refused : Refused carried output rest errno) :
    StartError pipeline output flags scheduling events errno

/-- How a run of a pipeline comes out that is not stopped in the middle. -/
inductive Outcomes (pipeline : Pipeline) (output : Descriptor) (flags : Flags)
    (scheduling : Scheduling) (events : List Event) : Outcome (PipelineFailure × Flags) → Prop
  | replaced {program : Word} {arguments : List String}
    (asks : pipeline.last.Asks program arguments) :
    Outcomes pipeline output flags scheduling events
      (.ended (.replaced program.toString arguments))
  | returned {failure : PipelineFailure} {flags' : Flags}
    (error : pipeline.StartError output flags scheduling events failure.errno) :
    Outcomes pipeline output flags scheduling events (.value (failure, flags'))
  | unread {errno : Errno} (error : pipeline.StartError output flags scheduling events errno)
    (last : events.getLast? =
      some (.answered (.write standardOutput commandNotFound.toUTF8) (.error .brokenPipe))) :
    Outcomes pipeline output flags scheduling events (.ended (.killed Signal.brokenPipe.number))

theorem startError_of_lastFault {parts : List (List Event)} {rest : List Event}
    {carried : Descriptor} {error : RunError}
    (all : LaunchedAll scheduling pipeline.earlier parts) (split : events = parts.flatten ++ rest)
    (fault : LastFault pipeline.last carried output rest error) :
    pipeline.StartError output flags scheduling events error.errno := by
  cases fault with
  | unusable h => exact h.errno_eq ▸ .last_unusable all split h
  | refused asks refused => exact .last_refused all split asks refused

theorem run_outcomes {outcome : Outcome (PipelineFailure × Flags)}
    (run : Runs (pipeline.run input output flags scheduling) events outcome)
    (complete : outcome ≠ .ended .pending) (lawful : Lawful table events)
    (standing : ∀ descriptor ∈ [standardInput, standardOutput, input],
      table descriptor ≠ .nothing) :
    pipeline.Outcomes output flags scheduling events outcome := by
  by_cases aborts : flags.error = true ∧ pipeline.earlier ≠ []
  · obtain ⟨idle, rfl⟩ := run_aborts run aborts.1 aborts.2
    exact .returned (.aborted aborts.1 aborts.2 idle)
  have clear := clear_or_alone aborts
  cases run_cases run complete clear lawful standing with
  | replaced all split childless asks silent => exact .replaced asks
  | earlier at_stage all split fault announces =>
    have several : pipeline.earlier ≠ [] := by simp [at_stage]
    exact .returned
      (.earlier (clear.resolve_right several) at_stage all split fault.stageError)
  | last all split childless fault announces =>
    exact .returned (startError_of_lastFault all split fault)
  | unread all split childless fault announces reset last =>
    exact .unread (startError_of_lastFault all split fault) last

end Pipeline

namespace Pipeline

structure Supervises (pipeline : Pipeline) (input output : Descriptor) (flags : Flags)
    (scheduling : Scheduling) (channel : Channel) (events inner : List Event) (fate : Fate)
    (told : Option Errno) (outcome : Outcome (PipelineFailure × Flags)) : Prop where
  closes_first : ∃ reply, .answered (.close channel.watcher) reply :: inner <+: events
  run : Runs (pipeline.run input output flags scheduling) inner outcome
  tells : Tells channel.reporter events fate told
  returned : ∀ failure flags', outcome = .value (failure, flags') → told = some failure.errno
  ended : ∀ fate', outcome = .ended fate' → fate' = fate ∧ told = none

theorem supervise_cases {α : Type} {channel : Channel} {fate : Fate}
    (run : Runs (closeAll [channel.watcher] >>= fun _ =>
      (pipeline.supervise input output flags scheduling (some channel.reporter) : Action α))
      events (.ended fate))
    (lawful : Lawful table events) (isOpen : table channel.reporter ≠ .nothing)
    (apart : Apart channel.reporter input output)
    (apart_ends : channel.watcher ≠ channel.reporter) :
    (events = [] ∧ fate = .pending) ∨ ∃ inner told outcome, pipeline.Supervises input output flags
      scheduling channel events inner fate told outcome := by
  rcases (runs_call_iff rfl).1 run with ⟨rfl, ended⟩ | ⟨reply, rest, rfl, supervises⟩
  · cases ended
    exact .inl ⟨rfl, rfl⟩
  refine .inr ?_
  have lawful_rest := lawful.2.2
  have still_open : table.after (.answered (.close channel.watcher) reply) channel.reporter ≠
      .nothing := by
    simpa [Table.after, apart_ends.symm] using isOpen
  have untouched : ∀ {inner : List Event} {outcome},
      Runs (pipeline.run input output flags scheduling) inner outcome →
        Lawful (table.after (.answered (.close channel.watcher) reply)) inner →
          Untouched channel.reporter (.answered (.close channel.watcher) reply :: inner) := by
    intro inner outcome runs lawful
    have untouched_inner := (runs.untouched (avoids_run apart) lawful still_open).1
    exact untouched_answered.2 ⟨by simpa [Call.names] using apart_ends, untouched_inner⟩
  rcases (Runs.bind_iff (contained_run ..)).1 supervises with
    ⟨inner, reporting, ⟨failure, flags'⟩, rfl, runs, reports⟩ | ⟨_, ended, runs⟩
  · have reports := Channel.runs_report_exit reports
    refine ⟨inner, some failure.errno, _, ⟨reply, List.prefix_append _ _⟩, runs,
      reports.tells.prepend (untouched runs lawful_rest.append.1), ?_, by simp⟩
    rintro _ _ ⟨⟩
    rfl
  · cases ended
    refine ⟨rest, none, _, ⟨reply, List.prefix_refl _⟩, runs,
      .nothing (untouched runs lawful_rest), by simp, ?_⟩
    rintro _ ⟨⟩
    exact ⟨rfl, rfl⟩

namespace Supervises

variable {channel : Channel} {inner : List Event} {fate : Fate} {told : Option Errno}
  {outcome : Outcome (PipelineFailure × Flags)}

theorem isInfix (supervises : pipeline.Supervises input output flags scheduling channel events
    inner fate told outcome) : inner <:+: events := by
  obtain ⟨reply, after, rfl⟩ := supervises.closes_first
  exact ⟨[.answered (.close channel.watcher) reply], after, rfl⟩

theorem outcomes (supervises : pipeline.Supervises input output flags scheduling channel events
    inner fate told outcome) (gone : told = none → fate ≠ .pending) (lawful : Lawful table events)
    (standing : ∀ descriptor ∈ [standardInput, standardOutput, input],
      table descriptor ≠ .nothing ∧ descriptor ≠ channel.watcher) :
    pipeline.Outcomes output flags scheduling inner outcome := by
  have complete : outcome ≠ .ended .pending := by
    rintro rfl
    obtain ⟨rfl, rfl⟩ := supervises.ended _ rfl
    exact gone rfl rfl
  obtain ⟨reply, after, rfl⟩ := supervises.closes_first
  refine run_outcomes supervises.run complete lawful.append.1.2.2 fun descriptor member => ?_
  obtain ⟨isOpen, not_watcher⟩ := standing descriptor member
  simpa [Table.after, not_watcher] using isOpen

end Supervises

def judged : Except Errno ChildReport → Option Errno → Except RunError JobOutcome
  | .error errno, _ => .error (.system errno)
  | .ok report, failure =>
    match WaitStatus.ofReport report, failure with
    | .error errno, _ => .error (.system errno)
    | .ok _, some errno => .ok (.failed errno)
    | .ok status, none => .ok (.finished status)

theorem awaitJob_parts {channel : Channel} {pid : Int} {result : Except RunError JobOutcome}
    (run : Runs (awaitJob channel pid) events (.value result)) :
    ∃ closed awaiting answer reply,
      events = .answered (.close channel.reporter) closed ::
        (awaiting ++ [.answered (.wait pid .block) reply]) ∧
      Runs (Channel.await channel.watcher) awaiting (.value answer) ∧
      result = judged reply answer := by
  rcases (runs_call_iff rfl).1 run with ⟨-, ⟨⟩⟩ | ⟨closed, rest, rfl, awaits⟩
  change Runs (Channel.await channel.watcher >>= _) rest _ at awaits
  rw [Runs.bind_value_iff (Channel.steady_await _).contained] at awaits
  obtain ⟨awaiting, last, answer, rfl, awaits, waits⟩ := awaits
  rcases (runs_perform_bind_iff rfl).1 waits with ⟨-, ⟨⟩⟩ | ⟨reply, last, rfl, returns⟩
  rcases reply with errno | report
  · obtain ⟨rfl, ⟨⟩⟩ := runs_done_iff.1 returns
    exact ⟨closed, awaiting, answer, _, rfl, awaits, rfl⟩
  · refine ⟨closed, awaiting, answer, .ok report, ?_⟩
    dsimp only at returns
    unfold judged
    split at returns <;>
    · obtain ⟨rfl, ⟨⟩⟩ := runs_done_iff.1 returns
      simp_all

theorem runInForeground_parts {result : Except RunError JobOutcome}
    (run : Runs (pipeline.runInForeground input output flags scheduling) events
      (.value result)) :
    (∃ errno, result = .error (.system errno) ∧ events = [.answered .pipe (.error errno)]) ∨
    (∃ readEnd writeEnd errno closing, result = .error (.system errno) ∧
      events = .answered .pipe (.ok (readEnd, writeEnd)) ::
        .answered .fork (.error errno) :: closing ∧
      Only (IsClose [readEnd, writeEnd]) closing) ∨
    ∃ readEnd writeEnd pid child fate rest,
      events = .answered .pipe (.ok (readEnd, writeEnd)) :: .forked pid child fate :: rest ∧
      Runs (closeAll [readEnd] >>= fun _ => (pipeline.supervise input output flags scheduling
        (some writeEnd) : Action (Except RunError JobOutcome))) child (.ended fate) ∧
      Runs (awaitJob ⟨readEnd, writeEnd⟩ pid) rest (.value result) := by
  rw [runInForeground, Channel.create, Action.bind_assoc] at run
  rcases (runs_perform_bind_iff rfl).1 run with ⟨-, ⟨⟩⟩ | ⟨reply, rest, rfl, forks⟩
  rcases reply with errno | ⟨readEnd, writeEnd⟩
  · obtain ⟨rfl, ⟨⟩⟩ := runs_done_iff.1 forks
    exact .inl ⟨errno, rfl, rfl⟩
  rcases runs_fork_iff.1 forks with ⟨-, ⟨⟩⟩ | ⟨errno, rest, rfl, closes⟩ |
    ⟨pid, child, fate, rest, rfl, inChild, inParent⟩
  · obtain ⟨closing, _, rfl, only, returns⟩ := runs_closeAll_bind closes (by simp)
    obtain ⟨rfl, ⟨⟩⟩ := runs_done_iff.1 returns
    rw [List.append_nil]
    exact .inr (.inl ⟨readEnd, writeEnd, errno, closing, rfl, rfl, only⟩)
  · exact .inr (.inr ⟨readEnd, writeEnd, pid, child, fate, rest, rfl, inChild, inParent⟩)

/-- The outcome of a job is that of the pipeline in its supervisor, on whose end there is a
report. -/
structure Conveys (events : List Event) (pid : Int) (outcome : Outcome (PipelineFailure × Flags))
    (result : Except RunError JobOutcome) : Prop where
  reported : ∃ report status, .answered (.wait pid .block) (.ok report) ∈ events ∧
    WaitStatus.ofReport report = .ok status
  failed_iff : ∀ errno, result = .ok (.failed errno) ↔
    ∃ failure flags, outcome = .value (failure, flags) ∧ failure.errno = errno
  finished_iff : ∀ status, result = .ok (.finished status) ↔
    (∃ fate, outcome = .ended fate) ∧
      ∃ report, .answered (.wait pid .block) (.ok report) ∈ events ∧
        WaitStatus.ofReport report = .ok status

/-- The system lets a process make a channel, fork and collect its children. -/
structure Grants (events : List Event) : Prop where
  pipe : ∀ errno, .answered .pipe (.error errno) ∉ events
  fork : ∀ errno, .answered .fork (.error errno) ∉ events
  wait : ∀ pid reply, .answered (.wait pid .block) reply ∈ events →
    ∃ report status, reply = .ok report ∧ WaitStatus.ofReport report = .ok status

theorem judged_ok {report : ChildReport} {status : WaitStatus} {failure : Option Errno}
    (decoded : WaitStatus.ofReport report = .ok status) :
    judged (.ok report) failure = .ok (failure.elim (.finished status) .failed) := by
  cases failure <;> simp [judged, decoded]

theorem conveys {channel : Channel} {child inner : List Event} {fate : Fate} {pid : Int}
    {told : Option Errno} {outcome : Outcome (PipelineFailure × Flags)} {report : ChildReport}
    {status : WaitStatus}
    (supervises : pipeline.Supervises input output flags scheduling channel child inner fate told
      outcome)
    (decoded : WaitStatus.ofReport report = .ok status)
    (only : ∀ other, .answered (.wait pid .block) (.ok other) ∈ events ↔ other = report) :
    Conveys events pid outcome (judged (.ok report) told) := by
  rw [judged_ok decoded]
  have reported : .answered (.wait pid .block) (.ok report) ∈ events := (only report).2 rfl
  cases outcome with
  | ended fate' =>
    obtain ⟨-, rfl⟩ := supervises.ended _ rfl
    refine ⟨⟨report, status, reported, decoded⟩, fun errno => by simp, fun other => ?_⟩
    simp [only, decoded]
  | value returned =>
    obtain ⟨failure, flags'⟩ := returned
    obtain rfl := supervises.returned _ _ rfl
    exact ⟨⟨report, status, reported, decoded⟩, fun errno => by simp, fun other => by simp⟩

/-- A foreground job has failed if the pipeline returned in its supervisor. Otherwise it has
finished, with the status that the system reports for the supervisor, which became the last program
or died over a message that nobody could read. -/
theorem job_reports (pipeline : Pipeline) (input output : Descriptor) (flags : Flags)
    (scheduling : Scheduling) (isOpen : Descriptor → Bool) (events : List Event)
    (result : Except RunError JobOutcome)
    (run : Runs (pipeline.runAsJob input output false flags scheduling) events (.value result))
    (granted : Grants events) (lawful : Lawful (Table.start isOpen) events)
    (standing : ∀ descriptor ∈ [standardInput, standardOutput, input, output],
      isOpen descriptor = true) :
    ∃ pid child fate inner outcome, children events = [⟨pid, child, fate⟩] ∧ inner <:+: child ∧
      Runs (pipeline.run input output flags scheduling) inner outcome ∧
      (∀ fate', outcome = .ended fate' → fate' = fate) ∧
      pipeline.Outcomes output flags scheduling inner outcome ∧
      Conveys events pid outcome result := by
  have standing_table : ∀ descriptor ∈ [standardInput, standardOutput, input, output],
      Table.start isOpen descriptor ≠ .nothing := fun descriptor member => by
    simp [Table.start, standing descriptor member]
  rcases runInForeground_parts run with ⟨errno, -, rfl⟩ | ⟨_, _, errno, _, -, rfl, -⟩ |
    ⟨readEnd, writeEnd, pid, child, fate, rest, rfl, inChild, inParent⟩
  · exact absurd (List.mem_singleton.2 rfl) (granted.pipe errno)
  · exact absurd (.tail _ (.head _)) (granted.fork errno)
  obtain ⟨closed, awaiting, answer, reply, rfl, awaits, rfl⟩ := awaitJob_parts inParent
  obtain ⟨report, status, rfl, decoded⟩ := granted.wait pid reply (by simp)
  obtain ⟨apart_ends, free_read, free_write⟩ := lawful.1.pipe
  have keeps := lawful.1.keeps_pipe
  have lawful_child := lawful.2.2.1
  have not_end : ∀ descriptor ∈ [standardInput, standardOutput, input, output],
      descriptor ≠ readEnd ∧ descriptor ≠ writeEnd := fun descriptor member =>
    ⟨Table.ne_of_isOpen (standing_table descriptor member) free_read,
      Table.ne_of_isOpen (standing_table descriptor member) free_write⟩
  have apart : Apart writeEnd input output :=
    ⟨(not_end standardInput (by simp)).2.symm, (not_end standardOutput (by simp)).2.symm,
      (not_end input (by simp)).2.symm, (not_end output (by simp)).2.symm⟩
  have arrive := lawful.2.1 readEnd writeEnd pid child fate closed _ rfl
  rcases @supervise_cases _ _ _ _ _ _ _ _ ⟨readEnd, writeEnd⟩ _ inChild lawful_child
    (by simp [Table.after_pipe_writeEnd]) apart apart_ends with
    ⟨rfl, rfl⟩ | ⟨inner, told, outcome, supervises⟩
  · have gone := Channel.await_tells awaits (.nothing (untouched_nil _)) (arrive (by simp) .nil)
    exact absurd rfl (gone.2 rfl)
  have closes_first : ∀ first ∈ child.head?, ∃ reply, first = .answered (.close readEnd) reply := by
    obtain ⟨reply, after, rfl⟩ := supervises.closes_first
    rintro _ ⟨⟩
    exact ⟨reply, rfl⟩
  obtain ⟨rfl, gone⟩ := Channel.await_tells awaits supervises.tells
    (arrive closes_first supervises.tells.onlyReports)
  have outcomes := supervises.outcomes gone lawful_child fun descriptor member => by
    have member' := List.mem_append_left [output] member
    exact ⟨keeps.isOpen (standing_table descriptor member'), (not_end descriptor member').1⟩
  have only := awaits.only (Channel.calls_await readEnd)
  refine ⟨pid, child, fate, inner, outcome, ?_, supervises.isInfix, supervises.run,
    fun fate' same => (supervises.ended fate' same).1, outcomes,
    conveys supervises decoded fun other => ?_⟩
  · simp [only.children_eq]
  · have not_awaited : .answered (.wait pid .block) (.ok other) ∉ awaiting := by
      intro member
      cases only.of_mem member
    simp [not_awaited]

def notFoundSupervisor : List Event := [
  .answered (.close 3) (.ok ()),
  .answered (.duplicateFrom standardOutput 3) (.ok 3),
  .answered (.setSignal Signal.interrupt.number false) (.ok ()),
  .answered (.setSignal Signal.brokenPipe.number false) (.ok ()),
  .answered (.exec "a" ["a"]) .noEntry,
  .answered (.duplicateTo 3 standardOutput) (.ok ()),
  .answered (.close 3) (.ok ()),
  .answered (.write standardOutput commandNotFound.toUTF8) (.ok 26),
  .answered (.write 4 Errno.noEntry.toBytes) (.ok 4),
  .answered (.close 4) (.ok ())]

def notFoundJob : List Event := [
  .answered .pipe (.ok (3, 4)),
  .forked 100 notFoundSupervisor (.exited 1),
  .answered (.close 4) (.ok ()),
  .answered (.read 3 4) (.ok Errno.noEntry.toBytes),
  .answered (.close 3) (.ok ()),
  .answered (.wait 100 .block) (.ok (.exited 1))]

theorem job_reports_not_found :
    ∃ pid child fate inner outcome, children notFoundJob = [⟨pid, child, fate⟩] ∧
      inner <:+: child ∧
      Runs (Pipeline.run ⟨[], ⟨[['a']]⟩⟩ standardInput standardOutput {} .concurrent) inner
        outcome ∧
      (∀ fate', outcome = .ended fate' → fate' = fate) ∧
      Pipeline.Outcomes ⟨[], ⟨[['a']]⟩⟩ standardOutput {} .concurrent inner outcome ∧
      Conveys notFoundJob pid outcome (.ok (.failed .noEntry)) := by
  have run : Runs (Pipeline.runAsJob ⟨[], ⟨[['a']]⟩⟩ standardInput standardOutput false {}
      .concurrent) notFoundJob (.value (.ok (.failed .noEntry))) := by
    refine .call _ rfl <| .fork 100 ?_ ?_
    · exact .call _ rfl <| .call _ rfl <| .call _ rfl <| .call _ rfl <| .call _ rfl <|
        .call _ rfl <| .call _ rfl <| .call _ rfl <| .call _ rfl <| .call _ rfl <| .exit 1 _
    · -- Only the decoding of the four bytes is not left to evaluation.
      refine .call _ rfl <| .call _ rfl <| .call _ rfl <| .call _ rfl <| ?_
      rw [ByteArray.empty_append, Errno.ofBytes?_toBytes]
      exact .done _
  have granted : Grants notFoundJob := by
    constructor <;> simp [notFoundJob, WaitStatus.ofReport]
  have delivers (finished : Prop) : Delivers 3 finished (sent 4 notFoundSupervisor) [
      .answered (.read 3 4) (.ok Errno.noEntry.toBytes), .answered (.close 3) (.ok ()),
      .answered (.wait 100 .block) (.ok (.exited 1))] :=
    fun _ => ⟨[], rfl, fun empty => absurd empty (by decide), trivial⟩
  have lawful : Lawful (Table.start (· ∈ [0, 1, 2])) notFoundJob := by
    refine ⟨by simp [Event.Lawful, Call.gains, Call.leastGain, Table.start], ?_, ?_⟩
    · rintro _ _ _ _ _ _ _ ⟨⟩ - -
      exact delivers _
    · simp [notFoundSupervisor, Lawful, Event.Lawful, Call.gains, Call.leastGain, Table.after,
        ReportsArrive]
  exact job_reports ⟨[], ⟨[['a']]⟩⟩ standardInput standardOutput {} .concurrent (· ∈ [0, 1, 2])
    notFoundJob _ run granted lawful (by decide)
end Pipeline

end PipelineShell
