import PipelineShell.Proofs.Line.Opening
import PipelineShell.Proofs.System.Uncollected

namespace PipelineShell

open PipelineShell.Action

variable {kin : List Int} {events : List Event}

/-! ## Calls that have nothing to do with children -/

theorem quiet_of_messages (only : Only Call.IsMessage events) : Quiet events := by
  refine only.mono fun request message pid mode waits => ?_
  subst waits
  cases message

theorem quiet_of_warnings
    (only : Only (fun request => ∃ part, request = .write standardError part) events) :
    Quiet events :=
  quiet_of_messages (only.mono fun _ => .of_warning)

theorem quiet_of_preparation (only : Only IsPreparation events) : Quiet events := by
  refine only.mono fun request prepares pid mode waits => ?_
  subst waits
  cases prepares

/-! ## Jobs -/

namespace Pipeline

variable {pipeline : Pipeline} {input output : Descriptor} {background : Bool} {flags : Flags}
  {scheduling : Scheduling} {result : Except RunError JobOutcome}

theorem awaitJob_waits {channel : Channel} {pid : Int}
    (run : Runs (awaitJob channel pid) events (.value result)) :
    ∃ waiting reply, events = waiting ++ [.answered (.wait pid .block) reply] ∧ Quiet waiting := by
  obtain ⟨closed, awaiting, answer, reply, rfl, awaits, -⟩ := awaitJob_parts run
  refine ⟨.answered (.close channel.reporter) closed :: awaiting, reply, rfl, ?_⟩
  have reads := awaits.only (Channel.calls_await channel.watcher)
  refine only_answered.2 ⟨nofun, reads.mono fun request ok pid mode waits => ?_⟩
  subst waits
  cases ok

theorem runInForeground_waits
    (run : Runs (pipeline.runInForeground input output flags scheduling) events (.value result)) :
    WaitsForChild events ∧ StatementResult.backgroundPid? result = none := by
  rcases runInForeground_parts run with ⟨errno, rfl, rfl⟩ | ⟨_, _, errno, closing, rfl, rfl, only⟩ |
    ⟨readEnd, writeEnd, pid, child, fate, rest, rfl, -, inParent⟩
  · exact ⟨.childless (by simp), rfl⟩
  · have closes : Quiet closing := by
      refine only.mono fun request ok pid mode waits => ?_
      obtain ⟨descriptor, -, rfl⟩ := ok
      cases waits
    exact ⟨.childless (by simpa using closes), rfl⟩
  · obtain ⟨_, _, _, _, _, -, judged⟩ := awaitJob_parts inParent
    obtain ⟨waiting, reply, rfl, quiet⟩ := awaitJob_waits inParent
    refine ⟨@WaitsForChild.waits [_] waiting [] pid child fate reply
      (by simp) quiet only_nil, ?_⟩
    subst judged
    unfold Pipeline.judged
    split
    · rfl
    · split <;> rfl

theorem uncollected_runAsJob
    (run : Runs (pipeline.runAsJob input output background flags scheduling) events (.value result))
    (tracks : KeepsTrack kin events) :
    uncollected kin events = (StatementResult.backgroundPid? result).toList ++ kin := by
  cases background with
  | false =>
    obtain ⟨waits, none⟩ := runInForeground_waits run
    rw [waits.uncollected_eq tracks, none]
    rfl
  | true =>
    rcases runs_fork_iff.1 run with ⟨-, ⟨⟩⟩ | ⟨errno, rest, rfl, returns⟩ |
      ⟨pid, child, fate, rest, rfl, -, returns⟩
    · obtain ⟨rfl, ⟨⟩⟩ := runs_done_iff.1 returns
      have quiet : Quiet [.answered .fork (.error errno)] := only_answered.2 ⟨nofun, only_nil⟩
      rw [quiet.uncollected_eq]
      rfl
    · obtain ⟨rfl, ⟨⟩⟩ := runs_done_iff.1 returns
      rfl

theorem children_of_background {pid : Int}
    (run : Runs (pipeline.runAsJob input output background flags scheduling) events (.value result))
    (started : StatementResult.backgroundPid? result = some pid) : children events ≠ [] := by
  cases background with
  | false =>
    rw [(runInForeground_waits run).2] at started
    cases started
  | true =>
    rcases runs_fork_iff.1 run with ⟨-, ⟨⟩⟩ | ⟨errno, rest, rfl, returns⟩ |
      ⟨pid, child, fate, rest, rfl, -, -⟩
    · cases (runs_done_iff.1 returns).2
      cases started
    · nofun

end Pipeline

/-! ## Statements -/

namespace Statement

variable {statement : Statement} {flags : Flags} {settings : Settings} {result : StatementResult}

theorem quiet_before {redirection : Redirection} {opening logging : List Event}
    (opens : Runs (Redirection.openFor statement) opening (.value (.ok redirection)))
    (logs : Runs (settings.console.log (statement.announcement settings)) logging (.value ())) :
    Quiet (opening ++ (logging ++ [.answered .flush (.ok ())])) := by
  have opening_quiet := quiet_of_preparation (opens.only (Redirection.calls_openFor _))
  have logging_quiet := quiet_of_warnings (logs.only (Console.calls_log ..))
  exact only_append.2 ⟨opening_quiet, only_append.2 ⟨logging_quiet, by simp⟩⟩

theorem waitsForChild (foreground : statement.background = false)
    (run : Runs (statement.run flags settings) events (.value result)) : WaitsForChild events := by
  rcases run_parts run with ⟨error, -, only⟩ |
    ⟨redirection, opening, logging, job, closing, rfl, opens, logs, runs_job, closes⟩
  · exact .childless (quiet_of_preparation only)
  · rw [foreground, Pipeline.runAsJob, if_neg Bool.false_ne_true] at runs_job
    have before := quiet_before opens logs
    have whole := (Pipeline.runInForeground_waits runs_job).1.within before
      (quiet_of_preparation (closes.only (Redirection.calls_close _)))
    simpa using whole

theorem uncollected_run (run : Runs (statement.run flags settings) events (.value result))
    (tracks : KeepsTrack kin events) :
    uncollected kin events = result.backgroundPid?.toList ++ kin := by
  rcases run_parts run with ⟨error, rfl, only⟩ |
    ⟨redirection, opening, logging, job, closing, rfl, opens, logs, runs_job, closes⟩
  · exact (quiet_of_preparation only).uncollected_eq kin
  · have before := quiet_before opens logs
    have after := quiet_of_preparation (closes.only (Redirection.calls_close _))
    have split : opening ++ (logging ++ .answered .flush (.ok ()) :: (job ++ closing)) =
        opening ++ (logging ++ [.answered .flush (.ok ())]) ++ (job ++ closing) := by simp
    rw [split] at tracks ⊢
    rw [keepsTrack_append, keepsTrack_append, before.uncollected_eq] at tracks
    rw [uncollected_append, uncollected_append, before.uncollected_eq, after.uncollected_eq]
    exact Pipeline.uncollected_runAsJob runs_job (keepsTrack_append.1 tracks.2).1

theorem length_startedJobs_le (run : Runs (statement.run flags settings) events (.value result)) :
    (Line.startedJobs [(statement, result)]).length ≤ (children events).length := by
  cases started : result.backgroundPid? with
  | none => simp [Line.startedJobs, started]
  | some pid =>
    rcases run_parts run with ⟨error, rfl, -⟩ |
      ⟨redirection, opening, logging, job, closing, rfl, -, -, runs_job, -⟩
    · cases started
    · have forked := List.length_pos_of_ne_nil (Pipeline.children_of_background runs_job started)
      simp only [Line.startedJobs, List.filterMap_cons, started, Option.map_some,
        List.filterMap_nil, List.length_singleton, children_append, children_answered,
        List.length_append]
      omega

end Statement

/-! ## Job tables -/

namespace JobTable

/-- Each of the children has a job in the table. -/
def Covers (table : JobTable) (kin : List Int) : Prop :=
  ∀ pid ∈ kin, ∃ job ∈ table.jobs, job.pid = pid

theorem covers_nil (table : JobTable) : table.Covers [] := nofun

theorem Covers.gains {table table' : JobTable} {statement : Statement} {result : StatementResult}
    (covers : table.Covers kin)
    (gains : table.Gains (Line.startedJobs [(statement, result)]) table') :
    table'.Covers (result.backgroundPid?.toList ++ kin) := by
  intro pid member
  rw [gains.jobs_eq]
  rcases List.mem_append.1 member with started | old
  · have found := Option.mem_toList.1 started
    refine ⟨⟨table.nextId, pid, statement.text⟩, ?_, rfl⟩
    simp [Line.startedJobs, Option.mem_def.1 found, Job.numbered]
  · obtain ⟨job, isJob, rfl⟩ := covers pid old
    exact ⟨job, List.mem_append_left _ isJob, rfl⟩

end JobTable

namespace Line

theorem covers_runStatements {settings : Settings} {flags : Flags} {progress after : Progress}
    {statements : List Statement}
    (run : Runs (runStatements settings flags progress statements) events (.value after))
    (tracks : KeepsTrack kin events) (covers : progress.jobs.Covers kin) :
    after.jobs.Covers (uncollected kin events) := by
  induction statements generalizing progress kin events with
  | nil =>
    obtain ⟨rfl, ⟨⟩⟩ := runs_done_iff.1 run
    exact covers
  | cons statement statements ih =>
    rcases runs_runStatements_cons_iff.1 run with
      ⟨result, jobs, running, telling, rest, rfl, run, told, others⟩ | ⟨_, ⟨⟩, -⟩
    obtain ⟨only, gains⟩ := runs_record told
    have quiet : Quiet telling := quiet_of_messages only
    rw [keepsTrack_append, keepsTrack_append] at tracks
    obtain ⟨⟨runs_true, -⟩, others_true⟩ := tracks
    rw [uncollected_append, quiet.uncollected_eq, Statement.uncollected_run run runs_true]
      at others_true
    rw [uncollected_append, uncollected_append, quiet.uncollected_eq,
      Statement.uncollected_run run runs_true]
    have covered := covers.gains gains
    rw [Progress.after_eq] at others
    split at others
    · obtain ⟨rfl, ⟨⟩⟩ := runs_done_iff.1 others
      exact covered
    · exact ih others others_true covered

theorem Performs.length_startedJobs_le {settings : Settings} {flags : Flags}
    {jobs jobs' : JobTable} {ran : List Ran}
    (performs : Performs settings flags jobs ran events jobs') :
    (startedJobs ran).length ≤ (children events).length := by
  induction performs with
  | nil => exact Nat.le_refl _
  | cons run told others ih =>
    have first := Statement.length_startedJobs_le run
    rw [startedJobs_cons, List.length_append, children_append, children_append, List.length_append,
      List.length_append]
    omega

theorem lasting_runStatements (settings : Settings) (flags : Flags) (progress : Progress)
    (statements : List Statement) :
    (runStatements settings flags progress statements).Lasting progress.jobs.room := by
  induction statements generalizing progress with
  | nil => exact lasting_done _
  | cons statement rest ih =>
    refine (statement.lasting_run ..).bind fun running result run => ?_
    have used := Statement.length_startedJobs_le run
    have inRange := progress.jobs.inRange
    refine Lasting.bind (lasting_record fun started => ?_) fun telling jobs told => ?_
    · have one : (startedJobs [(statement, result)]).length = 1 := by
        obtain ⟨pid, found⟩ := Option.isSome_iff_exists.1 started
        simp [startedJobs, found]
      rw [JobTable.room]
      omega
    · obtain ⟨only, gains⟩ := runs_record told
      have left := gains.nextId_eq
      dsimp only
      split
      · exact lasting_done _
      · refine (ih _).mono ?_
        rw [Progress.after_eq]
        simp only [JobTable.room, only.children_eq, List.length_nil]
        omega

theorem lasting_run (line : Line) (settings : Settings) (jobs : JobTable) :
    (line.run settings jobs).Lasting jobs.room := by
  unfold run
  split
  · exact lasting_done _
  · exact (lasting_runStatements settings line.flags { jobs } _).bind fun _ _ _ => lasting_done _

theorem room_le {line line' : Line} {settings : Settings} {jobs jobs' : JobTable} {status : Nat}
    (run : Runs (line.run settings jobs) events (.value (status, line', jobs'))) :
    jobs.room ≤ jobs'.room + (children events).length := by
  cases failed : line.flags.error with
  | true =>
    simp only [Line.run, failed, if_true] at run
    obtain ⟨rfl, ⟨⟩⟩ := runs_done_iff.1 run
    exact Nat.le_add_right ..
  | false =>
    rcases (runs_run_iff failed).1 run with ⟨ran, _, -, performs, same⟩ | ⟨_, ⟨⟩, -⟩
    cases same
    have used := performs.length_startedJobs_le
    have left := performs.gains.nextId_eq
    simp only [JobTable.room]
    omega

end Line

/-! ## Reaps -/

namespace JobTable

/-- What makes a job leave a table: its poll has collected the child, or there is no such child. -/
def Gone (events : List Event) (job : Job) : Prop :=
  ∃ reply, .answered (.wait job.pid .poll) reply ∈ events ∧
    (Event.collected? (.answered (.wait job.pid .poll) reply) = some job.pid ∨
      reply = .error .noChild)

theorem Gone.mono {more : List Event} {job : Job} (gone : Gone events job)
    (subset : events ⊆ more) : Gone more job := by
  obtain ⟨reply, member, why⟩ := gone
  exact ⟨reply, subset member, why⟩

theorem gone_of_parting {job : Job} {answer : Except Errno ChildReport} {status : WaitStatus}
    (parts : parting? (understood answer) = some status) :
    Event.collected? (.answered (.wait job.pid .poll) answer) = some job.pid ∨
      answer = .error .noChild := by
  rcases parting?_eq_some_iff.1 parts with ⟨ends, ended⟩ | ⟨denied, -⟩
  · rcases answer with errno | report
    · cases ends
    · refine .inl (if_neg ?_)
      rintro rfl
      cases ends
      exact ended rfl
  · rcases answer with errno | report | code | number
    · cases denied
      exact .inr rfl
    · cases denied
    · cases denied
    · exact .inl rfl

theorem quiet_complaint {console : Console} {job : Job} {status : Except Errno WaitStatus}
    (run : Runs (complaint console job status) events (.value ())) : Quiet events := by
  unfold complaint at run
  split at run
  · exact quiet_of_warnings (run.only (Console.calls_error ..))
  · rw [(runs_done_iff.1 run).1]
    exact only_nil
  · rw [(runs_done_iff.1 run).1]
    exact only_nil

structure Keeps (kin : List Int) (events : List Event) (jobs kept : List Job) : Prop where
  fewer : uncollected kin events ⊆ kin
  covered : ∀ job ∈ jobs, job.pid ∈ uncollected kin events → job ∈ kept
  gone : ∀ job ∈ jobs, job ∈ kept ∨ Gone events job

theorem Keeps.cons {job : Job} {polled : List Polled} {answer : Except Errno ChildReport}
    {telling more : List Event} (quiet : Quiet telling)
    (denied : Event.KeepsTrack kin (.answered (.wait job.pid .poll) answer))
    (keeps : Keeps (Event.uncollected kin (.answered (.wait job.pid .poll) answer)) more
      (polled.map Prod.fst) (staying polled)) :
    Keeps kin (.answered (.wait job.pid .poll) answer :: (telling ++ more))
      (job :: polled.map Prod.fst) (staying ((job, answer) :: polled)) := by
  have left : uncollected kin (.answered (.wait job.pid .poll) answer :: (telling ++ more)) =
      uncollected (Event.uncollected kin (.answered (.wait job.pid .poll) answer)) more := by
    rw [uncollected, uncollected_append, quiet.uncollected_eq]
  have fewer : Event.uncollected kin (.answered (.wait job.pid .poll) answer) ⊆ kin :=
    Event.uncollected_answered_subset ..
  have fewer_left : uncollected kin (.answered (.wait job.pid .poll) answer :: (telling ++ more)) ⊆
      kin :=
    left ▸ List.Subset.trans keeps.fewer fewer
  have later {other : Job} (gone : Gone more other) :
      Gone (.answered (.wait job.pid .poll) answer :: (telling ++ more)) other :=
    gone.mono fun event member => List.mem_cons_of_mem _ (List.mem_append_right _ member)
  cases parts : Polled.parting? (job, answer) with
  | none =>
    -- The job stays.
    rw [staying_cons_of_none parts]
    refine ⟨fewer_left, List.forall_mem_cons.2 ⟨fun _ => .head _, ?_⟩,
      List.forall_mem_cons.2 ⟨.inl (.head _), ?_⟩⟩
    · rw [left]
      exact fun other member alive => .tail _ (keeps.covered other member alive)
    · exact fun other member => (keeps.gone other member).imp (.tail _) later
  | some status =>
    have why := @gone_of_parting job answer status parts
    rw [staying_cons_of_some parts]
    refine ⟨fewer_left, List.forall_mem_cons.2 ⟨fun alive => ?_, ?_⟩,
      List.forall_mem_cons.2 ⟨.inr ⟨answer, .head _, why⟩, ?_⟩⟩
    · rw [left] at alive
      -- A child that is still there has neither been collected nor denied.
      have asked := keeps.fewer alive
      rcases why with collects | noChild
      · exact absurd asked (Event.not_mem_uncollected collects)
      · exact absurd (fewer asked) (denied noChild)
    · rw [left]
      exact keeps.covered
    · exact fun other member => (keeps.gone other member).imp id later

theorem pollAll_keeps {console : Console} {jobs : List Job} {gone : List (Nat × WaitStatus)}
    (run : Runs (pollAll console jobs) events (.value gone)) (tracks : KeepsTrack kin events) :
    ∃ polled : List Polled, polled.map Prod.fst = jobs ∧ gone = noted (leaving polled) ∧
      Keeps kin events jobs (staying polled) := by
  induction jobs generalizing kin events gone with
  | nil =>
    obtain ⟨rfl, ⟨⟩⟩ := runs_done_iff.1 run
    exact ⟨[], rfl, rfl, List.Subset.refl _, nofun, nofun⟩
  | cons job rest ih =>
    rw [pollAll_cons, Runs.bind_value_iff (steady_poll job).contained] at run
    obtain ⟨polling, _, status, rfl, poll, run⟩ := run
    rw [Runs.bind_value_iff (contained_complaint ..)] at run
    obtain ⟨telling, _, _, rfl, tells, run⟩ := run
    rw [Runs.bind_value_iff (contained_pollAll ..)] at run
    obtain ⟨more, _, others, rfl, run, returns⟩ := run
    obtain ⟨rfl, ⟨⟩⟩ := runs_done_iff.1 returns
    obtain ⟨answer, rfl, rfl⟩ := runs_poll_iff.1 poll
    have quiet : Quiet telling := quiet_complaint tells
    obtain ⟨denied, tracks⟩ : _ ∧ KeepsTrack _ (telling ++ (more ++ [])) := tracks
    rw [List.append_nil, keepsTrack_append, quiet.uncollected_eq] at tracks
    obtain ⟨polled, rfl, rfl, keeps⟩ := ih run tracks.2
    refine ⟨(job, answer) :: polled, rfl, noteDown_leaving .., ?_⟩
    rw [List.append_nil]
    have kept := keeps.cons quiet denied
    exact kept

theorem reap_keeps {table table' : JobTable} {console : Console} {left : List (Job × WaitStatus)}
    (run : Runs (table.reap console) events (.value (left, table')))
    (tracks : KeepsTrack kin events) :
    Keeps kin events table.jobs table'.jobs := by
  rw [reap, Runs.bind_value_iff (contained_pollAll ..)] at run
  obtain ⟨polling, _, gone, rfl, polls_all, returns⟩ := run
  obtain ⟨rfl, same⟩ := runs_done_iff.1 returns
  rw [List.append_nil] at tracks ⊢
  obtain ⟨polled, asked, rfl, keeps⟩ := pollAll_keeps polls_all tracks
  have taken := (takeOut_leaving asked).2.1
  rw [← Outcome.value.inj same] at taken
  exact taken ▸ keeps

theorem Keeps.covers {table table' : JobTable} (keeps : Keeps kin events table.jobs table'.jobs)
    (covers : table.Covers kin) : table'.Covers (uncollected kin events) := by
  intro pid alive
  obtain ⟨job, member, rfl⟩ := covers pid (keeps.fewer alive)
  exact ⟨job, keeps.covered job member alive, rfl⟩

end JobTable

end PipelineShell
