import PipelineShell.Proofs.Job.Reap
import PipelineShell.Proofs.Job.Report
import PipelineShell.Proofs.Line.Frame
import PipelineShell.Proofs.Line.ShortCircuit

namespace PipelineShell

open PipelineShell.Action

variable {table : Table} {events : List Event}

theorem Only.lawful {allowed : Call → Prop} (only : Only allowed events)
    (giving : ∀ request, allowed request → ∀ reply, request.gains reply = []) :
    Lawful table events := by
  induction events generalizing table with
  | nil => trivial
  | cons event rest ih =>
    have arrive : ReportsArrive (event :: rest) := by
      rintro readEnd writeEnd pid child fate closed after same - -
      rw [same] at only
      have pipe := (only_answered.1 only).1
      exact absurd (giving _ pipe (.ok (readEnd, writeEnd))) (by simp [Call.gains])
    cases event with
    | forked pid child fate => exact absurd only not_only_forked
    | answered request reply =>
      obtain ⟨ok, others⟩ := only_answered.1 only
      have nothing_given := giving request ok reply
      exact ⟨by simp [Event.Lawful, nothing_given], arrive, ih others⟩

namespace Pipeline

variable {pipeline : Pipeline} {input output : Descriptor} {flags : Flags}
  {scheduling : Scheduling}

theorem supervise_replaced {α : Type} {channel : Channel} {program : String}
    {arguments : List String}
    (run : Runs (closeAll [channel.watcher] >>= fun _ =>
      (pipeline.supervise input output flags scheduling (some channel.reporter) : Action α))
      events (.ended (.replaced program arguments)))
    (lawful : Lawful table events) (isOpen : table channel.reporter ≠ .nothing)
    (apart : Apart channel.reporter input output)
    (apart_ends : channel.watcher ≠ channel.reporter) :
    (∀ first ∈ events.head?, ∃ reply, first = .answered (.close channel.watcher) reply) ∧
      Untouched channel.reporter events := by
  rcases (runs_call_iff rfl).1 run with ⟨-, ⟨⟩⟩ | ⟨reply, rest, rfl, supervises⟩
  refine ⟨?_, ?_⟩
  · rintro _ ⟨⟩
    exact ⟨reply, rfl⟩
  have still_open : table.after (.answered (.close channel.watcher) reply) channel.reporter ≠
      .nothing := by
    simpa [Table.after, apart_ends.symm] using isOpen
  rcases (Runs.bind_iff (contained_run ..)).1 supervises with
    ⟨inner, reporting, ⟨failure, flags'⟩, rfl, -, reports⟩ | ⟨_, -, runs⟩
  · rcases (Channel.runs_report_exit reports).ended with ⟨⟨⟩⟩ | ⟨_, ⟨⟩⟩
  · have untouched := (runs.untouched (avoids_run apart) lawful.2.2 still_open).1
    exact untouched_answered.2 ⟨by simpa [Call.names] using apart_ends, untouched⟩

theorem runAsJob_replaced {result : Except RunError JobOutcome} {pid : Int} {child : List Event}
    {program : String} {arguments : List String} {report : ChildReport}
    (run : Runs (pipeline.runAsJob input output false flags scheduling) events (.value result))
    (lawful : Lawful table events)
    (standing : ∀ descriptor ∈ [standardInput, standardOutput, input, output],
      table descriptor ≠ .nothing)
    (forked : ⟨pid, child, .replaced program arguments⟩ ∈ children events)
    (waited : .answered (.wait pid .block) (.ok report) ∈ events) :
    result = judged (.ok report) none := by
  rcases runInForeground_parts run with ⟨errno, -, rfl⟩ | ⟨_, _, errno, closing, -, rfl, only⟩ |
    ⟨readEnd, writeEnd, pid, child, fate, rest, rfl, inChild, inParent⟩
  · cases forked
  · simp [only.children_eq] at forked
  obtain ⟨closed, awaiting, answer, reply, rfl, awaits, rfl⟩ := awaitJob_parts inParent
  have only := awaits.only (Channel.calls_await readEnd)
  obtain ⟨rfl, rfl, rfl⟩ : _ = pid ∧ _ = child ∧ _ = fate := by
    simpa [only.children_eq] using forked
  have not_awaited : .answered (.wait pid .block) (.ok report) ∉ awaiting := by
    intro member
    cases only.of_mem member
  obtain rfl : Except.ok report = reply := by simpa [not_awaited] using waited
  obtain ⟨apart_ends, free_read, free_write⟩ := lawful.1.pipe
  have apart : Apart writeEnd input output :=
    ⟨(Table.ne_of_isOpen (standing standardInput (by simp)) free_write).symm,
      (Table.ne_of_isOpen (standing standardOutput (by simp)) free_write).symm,
      (Table.ne_of_isOpen (standing input (by simp)) free_write).symm,
      (Table.ne_of_isOpen (standing output (by simp)) free_write).symm⟩
  obtain ⟨closes_first, untouched⟩ := @supervise_replaced _ _ _ _ _ _ _ _
    ⟨readEnd, writeEnd⟩ _ _ inChild lawful.2.2.1
    (by simp [Table.after_pipe_writeEnd]) apart apart_ends
  have tells : Tells writeEnd child (.replaced program arguments) none := .nothing untouched
  have delivers := lawful.2.1 readEnd writeEnd pid child _ closed _ rfl closes_first
    tells.onlyReports
  obtain ⟨rfl, -⟩ := Channel.await_tells awaits tells delivers
  rfl

end Pipeline

inductive IsPreparation : Call → Prop
  | openFile (path : String) (mode : OpenMode) : IsPreparation (.openFile path mode)
  | close (descriptor : Descriptor) : IsPreparation (.close descriptor)
  | log (part : ByteArray) : IsPreparation (.write standardError part)
  | flush : IsPreparation .flush

theorem calls_closeAll_preparation (descriptors : List Descriptor) :
    (closeAll descriptors).Calls IsPreparation := by
  apply (calls_closeAll descriptors).mono
  rintro _ ⟨descriptor, -, rfl⟩
  exact .close descriptor

namespace Redirection

theorem calls_openPath? (path : Option Word) (mode : OpenMode) :
    (openPath? path mode).Calls IsPreparation := by
  cases path with
  | none => trivial
  | some path =>
    refine Calls.bind ?_ fun opened => by cases opened <;> trivial
    unfold openPath
    split
    · trivial
    · have once : (perform (.openFile path.toString mode)).Calls IsPreparation :=
        calls_perform (.openFile ..) rfl
      have again : (uninterrupted (perform (.openFile path.toString mode))).Calls IsPreparation :=
        calls_loop (fun _ => once.bind fun reply => by cases reply <;> trivial) _ _
      exact again.bind fun opened => by cases opened <;> trivial

theorem calls_openFor (statement : Statement) : (openFor statement).Calls IsPreparation := by
  refine (calls_openPath? ..).bind fun input => ?_
  cases input with
  | error error => trivial
  | ok input =>
    refine (calls_openPath? ..).bind fun output => ?_
    cases output with
    | ok output => trivial
    | error error => exact (calls_closeAll_preparation _).bind fun _ => trivial

theorem calls_close (redirection : Redirection) : redirection.close.Calls IsPreparation :=
  (calls_closeAll_preparation _).bind fun _ => calls_closeAll_preparation _

end Redirection

namespace Statement

theorem run_parts {statement : Statement} {flags : Flags} {settings : Settings}
    {result : StatementResult}
    (run : Runs (statement.run flags settings) events (.value result)) :
    (∃ error, result = .error error ∧ Only IsPreparation events) ∨
    ∃ redirection opening logging job closing,
      events = opening ++ (logging ++ .answered .flush (.ok ()) :: (job ++ closing)) ∧
      Runs (Redirection.openFor statement) opening (.value (.ok redirection)) ∧
      Runs (settings.console.log (statement.announcement settings)) logging (.value ()) ∧
      Runs (statement.pipeline.runAsJob redirection.inputEnd redirection.outputEnd
        statement.background flags settings.scheduling) job (.value result) ∧
      Runs redirection.close closing (.value ()) := by
  unfold Statement.run at run
  rw [Runs.bind_value_iff (Redirection.steady_openFor _).contained] at run
  obtain ⟨opening, _, opened, rfl, opens, run⟩ := run
  cases opened with
  | error error =>
    obtain ⟨rfl, ⟨⟩⟩ := runs_done_iff.1 run
    rw [List.append_nil]
    exact .inl ⟨error, rfl, opens.only (Redirection.calls_openFor _)⟩
  | ok redirection =>
    rw [Runs.bind_value_iff (Console.contained_log ..)] at run
    obtain ⟨logging, _, _, rfl, logs, run⟩ := run
    rcases (runs_perform_bind_iff rfl).1 run with ⟨-, ⟨⟩⟩ | ⟨flushed, _, rfl, goes_on⟩
    rcases flushed with cause | ⟨⟩
    · dsimp only at goes_on
      rw [Runs.bind_value_iff (Redirection.steady_close _).contained] at goes_on
      obtain ⟨closing, _, _, rfl, closes, returns⟩ := goes_on
      obtain ⟨rfl, ⟨⟩⟩ := runs_done_iff.1 returns
      refine .inl ⟨_, rfl, only_append.2 ⟨opens.only (Redirection.calls_openFor _),
        only_append.2 ⟨(logs.only (Console.calls_log ..)).mono ?_, only_answered.2 ⟨.flush, ?_⟩⟩⟩⟩
      · rintro _ ⟨part, rfl⟩
        exact .log part
      · simpa using closes.only (Redirection.calls_close _)
    dsimp only at goes_on
    rw [Runs.bind_value_iff (Pipeline.steady_runAsJob ..).contained] at goes_on
    obtain ⟨job, _, result, rfl, runs_job, goes_on⟩ := goes_on
    rw [Runs.bind_value_iff (Redirection.steady_close _).contained] at goes_on
    obtain ⟨closing, _, _, rfl, closes, returns⟩ := goes_on
    obtain ⟨rfl, ⟨⟩⟩ := runs_done_iff.1 returns
    rw [List.append_nil]
    exact .inr ⟨redirection, opening, logging, job, closing, rfl, opens, logs, runs_job, closes⟩

theorem run_replaced {statement : Statement} {flags : Flags} {settings : Settings}
    {result : StatementResult} {pid : Int} {child : List Event} {program : String}
    {arguments : List String} {report : ChildReport}
    (run : Runs (statement.run flags settings) events (.value result))
    (lawful : Lawful table events)
    (standing : ∀ descriptor ∈ [standardInput, standardOutput], table descriptor ≠ .nothing)
    (foreground : statement.background = false)
    (forked : ⟨pid, child, .replaced program arguments⟩ ∈ children events)
    (waited : .answered (.wait pid .block) (.ok report) ∈ events) :
    result = Pipeline.judged (.ok report) none := by
  have not_preparing : ∀ {segment : List Event}, Only IsPreparation segment →
      .answered (.wait pid .block) (.ok report) ∉ segment := fun only member =>
    nomatch only.of_mem member
  rcases run_parts run with ⟨error, rfl, only⟩ |
    ⟨redirection, opening, logging, job, closing, rfl, opens, logs, runs_job, closes⟩
  · exact absurd waited (not_preparing only)
  have only_opening := opens.only (Redirection.calls_openFor _)
  have only_logging := logs.only (Console.calls_log ..)
  have only_closing := closes.only (Redirection.calls_close _)
  have not_logging : .answered (.wait pid .block) (.ok report) ∉ logging := by
    intro member
    obtain ⟨part, same⟩ := only_logging.of_mem member
    cases same
  -- Only the job itself forks and waits.
  have forked_job : ⟨pid, child, .replaced program arguments⟩ ∈ children job := by
    simpa [only_opening.children_eq, only_logging.children_eq, only_closing.children_eq]
      using forked
  have waited_job : .answered (.wait pid .block) (.ok report) ∈ job := by
    simpa [not_preparing only_opening, not_preparing only_closing, not_logging] using waited
  have lawful_logging := lawful.append.2
  have lawful_job := lawful_logging.append.2.2.2.append.1
  have standing_job := Redirection.runs_openFor opens lawful.append.1 standing
  rw [foreground] at runs_job
  refine Pipeline.runAsJob_replaced runs_job lawful_job ?_ forked_job waited_job
  intro descriptor member
  rw [show ∀ table : Table, table.after (.answered .flush (.ok ())) = table from fun _ => rfl,
    Table.afterAll_of_messages (only_logging.mono fun _ => .of_warning)]
  exact standing_job descriptor member

end Statement

namespace Line

/-- A statement's share of the run of a line: its result, its events, and those of telling the
user about it. -/
structure Turn where
  statement : Statement
  result : StatementResult
  running : List Event
  telling : List Event

namespace Turn

def ran (turn : Turn) : Ran := (turn.statement, turn.result)

def trace (turn : Turn) : List Event := turn.running ++ turn.telling

end Turn

def Turn.Stands (settings : Settings) (flags : Flags) (turn : Turn) : Prop :=
  Runs (turn.statement.run flags settings) turn.running (.value turn.result) ∧
    ∃ table : Table, Lawful table turn.running ∧
      ∀ descriptor ∈ [standardInput, standardOutput], table descriptor ≠ .nothing

theorem Performs.exists_turns {settings : Settings} {flags : Flags} {jobs jobs' : JobTable}
    {ran : List Ran} (performs : Performs settings flags jobs ran events jobs')
    (lawful : Lawful table events)
    (standing : ∀ descriptor ∈ [standardInput, standardOutput], table descriptor ≠ .nothing) :
    ∃ turns : List Turn, turns.map Turn.ran = ran ∧ events = (turns.map Turn.trace).flatten ∧
      ∀ turn ∈ turns, turn.Stands settings flags := by
  induction performs generalizing table with
  | nil jobs => exact ⟨[], rfl, rfl, nofun⟩
  | @cons _ _ _ statement result ran running telling rest run told others ih =>
    have lawful_turn := lawful.append.1
    have standing_rest : ∀ descriptor ∈ [standardInput, standardOutput],
        table.afterAll (running ++ telling) descriptor ≠ .nothing := by
      intro descriptor member
      have isOpen := standing descriptor member
      have kept := run.keeps (statement.spares_run ..) lawful_turn.append.1 isOpen
      rw [Table.afterAll_append, Table.afterAll_of_messages (runs_record told).1, kept]
      exact isOpen
    obtain ⟨turns, rfl, rfl, stands⟩ := ih lawful.append.2 standing_rest
    refine ⟨⟨statement, result, running, telling⟩ :: turns, rfl, rfl, ?_⟩
    intro turn member
    rcases List.mem_cons.1 member with rfl | member
    · exact ⟨run, table, lawful_turn.append.1, standing⟩
    · exact stands turn member

namespace UpToFailure

variable {statements : List Statement} {turns : List Turn} {i : Nat} {turn : Turn}

theorem next_runs (upTo : UpToFailure statements (turns.map Turn.ran))
    (reached : turns[i]? = some turn) (passed : turn.result.fails = false) :
    turns[i + 1]?.map Turn.statement = statements[i + 1]? := by
  have bound : i < turns.length := (List.getElem?_eq_some_iff.1 reached).1
  obtain ⟨later, in_order⟩ := upTo.in_order
  have order : turns.map Turn.statement ++ later = statements := by
    simpa [List.map_map, Function.comp_def, Turn.ran] using in_order
  by_cases last : i + 1 < turns.length
  · rw [← order, List.getElem?_append_left (by simpa using last), List.getElem?_map]
  · have length_eq : turns.length = i + 1 := by omega
    rcases upTo.complete with complete | ⟨failing, found, fails⟩
    · have length_statements : statements.length = i + 1 := by
        rw [← complete]
        simpa using length_eq
      rw [List.getElem?_eq_none (by omega), List.getElem?_eq_none (by omega)]
      rfl
    · have at_last : (turns.map Turn.ran).getLast? = some turn.ran := by
        rw [List.getLast?_eq_getElem?, List.getElem?_map, List.length_map, length_eq,
          Nat.add_sub_cancel, reached]
        rfl
      rw [at_last] at found
      obtain rfl := Option.some.inj found
      rw [show turn.ran.2.fails = false from passed] at fails
      cases fails

theorem last_of_fails (upTo : UpToFailure statements (turns.map Turn.ran))
    (reached : turns[i]? = some turn) (fails : turn.result.fails = true) :
    turns.length = i + 1 := by
  obtain ⟨bound, found⟩ := List.getElem?_eq_some_iff.1 reached
  by_contra other
  have earlier : i < (turns.map Turn.ran).dropLast.length := by
    simp only [List.length_dropLast, List.length_map]
    omega
  have member : turn.ran ∈ (turns.map Turn.ran).dropLast := by
    refine List.mem_of_getElem (i := i) (h := earlier) ?_
    simp [List.getElem_dropLast, found]
  rw [show turn.result.fails = turn.ran.2.fails from rfl, upTo.passed _ member] at fails
  cases fails

end UpToFailure

/-- What the report on the end of a statement's last program makes of the statement and of the rest
of the line. -/
inductive Consequence (line : Line) (turns : List Turn) (i : Nat) (turn : Turn) (status : Nat)
    (line' : Line) : ChildReport → Prop
  | exited (code : Nat) (passes : turn.result.fails = false)
    (contributes : turn.result.exitStatus = code)
    (next : turns[i + 1]?.map Turn.statement = line.statements[i + 1]?) :
    Consequence line turns i turn status line' (.exited code)
  | killed {number : Nat} (positive : 1 ≤ number) (named : number ≤ 31)
    (passes : turn.result.fails = false) (contributes : turn.result.exitStatus = 128 + number)
    (next : turns[i + 1]?.map Turn.statement = line.statements[i + 1]?) :
    Consequence line turns i turn status line' (.killed number)
  | nameless {number : Nat} (unnamed : ¬ (1 ≤ number ∧ number ≤ 31))
    (result : turn.result = .error (.system .invalid)) (last : turns.length = i + 1)
    (marked : line'.flags.error = true) (failed : status = 1) :
    Consequence line turns i turn status line' (.killed number)

theorem consequence_of_judged {line line' : Line} {turns : List Turn} {i : Nat} {turn : Turn}
    {status : Nat} {report : ChildReport} (ended : report ≠ .running)
    (upTo : UpToFailure line.statements (turns.map Turn.ran)) (reached : turns[i]? = some turn)
    (result : turn.result = Pipeline.judged (.ok report) none)
    (status_eq : status = statusAfter 0 (turns.map Turn.ran))
    (error_eq : line'.flags.error = (turns.map Turn.ran).any (·.2.fails)) :
    Consequence line turns i turn status line' report := by
  cases report with
  | running => exact absurd rfl ended
  | exited code =>
    have passes : turn.result.fails = false := by rw [result]; rfl
    exact .exited code passes (by rw [result]; rfl) (upTo.next_runs reached passes)
  | killed number =>
    by_cases named : 1 ≤ number ∧ number ≤ 31
    · have finished : turn.result = .ok (.finished (.signaled ⟨number⟩)) := by
        simp [result, Pipeline.judged, WaitStatus.ofReport_killed, named]
      have passes : turn.result.fails = false := by rw [finished]; rfl
      exact .killed named.1 named.2 passes (by rw [finished]; rfl) (upTo.next_runs reached passes)
    · have failed : turn.result = .error (.system .invalid) := by
        simp [result, Pipeline.judged, WaitStatus.ofReport_killed, named]
      have fails : turn.result.fails = true := by rw [failed]; rfl
      have last := upTo.last_of_fails reached fails
      have at_last : (turns.map Turn.ran).getLast? = some turn.ran := by
        rw [List.getLast?_eq_getElem?, List.getElem?_map, List.length_map, last,
          Nat.add_sub_cancel, reached]
        rfl
      refine .nameless named failed last ?_ ?_
      · rw [error_eq, List.any_eq_true]
        exact ⟨turn.ran, List.mem_of_getLast? at_last, fails⟩
      · rw [status_eq, statusAfter, at_last]
        show turn.result.exitStatus = 1
        rw [failed]
        rfl

/-- A line is run in turns, one for each statement up to the first that fails. After the turn of a
foreground statement that started all its programs, the line goes on if the last of them exited, or
was killed by a signal with a name, and contributes that to the status. -/
theorem goes_on_after_end (line : Line) (settings : Settings) (jobs : JobTable)
    (isOpen : Descriptor → Bool) (events : List Event) (status : Nat) (line' : Line)
    (jobs' : JobTable) (run : Runs (line.run settings jobs) events (.value (status, line', jobs')))
    (clear : line.flags.error = false) (lawful : Lawful (Table.start isOpen) events)
    (standing : ∀ descriptor ∈ [standardInput, standardOutput], isOpen descriptor = true) :
    ∃ turns : List Turn, events = (turns.map Turn.trace).flatten ∧
      (∀ turn ∈ turns,
        Runs (turn.statement.run line.flags settings) turn.running (.value turn.result)) ∧
      UpToFailure line.statements (turns.map Turn.ran) ∧
      status = statusAfter 0 (turns.map Turn.ran) ∧
      line'.flags.error = (turns.map Turn.ran).any (·.2.fails) ∧
      ∀ i turn pid child program arguments report, turns[i]? = some turn →
        turn.statement.background = false →
        ⟨pid, child, .replaced program arguments⟩ ∈ children turn.running →
        .answered (.wait pid .block) (.ok report) ∈ turn.running → report ≠ .running →
        Consequence line turns i turn status line' report := by
  have standing_table : ∀ descriptor ∈ [standardInput, standardOutput],
      Table.start isOpen descriptor ≠ .nothing := by
    intro descriptor member
    simp [Table.start, standing descriptor member]
  rcases (runs_run_iff clear).1 run with ⟨ran, _, upTo, performs, same⟩ | ⟨_, ⟨⟩, -⟩
  cases same
  obtain ⟨turns, rfl, rfl, stands⟩ := performs.exists_turns lawful standing_table
  refine ⟨turns, rfl, fun turn member => (stands turn member).1, upTo, rfl, rfl, ?_⟩
  intro i turn pid child program arguments report reached foreground forked waited ended
  obtain ⟨run_turn, table, lawful_turn, standing_turn⟩ :=
    stands turn (List.mem_of_getElem? reached)
  have result := Statement.run_replaced run_turn lawful_turn standing_turn foreground forked waited
  exact consequence_of_judged ended upTo reached result rfl rfl

def startedSupervisor : List Event := [
  .answered (.close 3) (.ok ()),
  .answered (.duplicateFrom standardOutput 3) (.ok 3),
  .answered (.setSignal Signal.interrupt.number false) (.ok ()),
  .answered (.setSignal Signal.brokenPipe.number false) (.ok ())]

def killedJob (number : Nat) : List Event := [
  .answered .flush (.ok ()),
  .answered .pipe (.ok (3, 4)),
  .forked 100 startedSupervisor (.replaced "a" ["a"]),
  .answered (.close 4) (.ok ()),
  .answered (.read 3 4) (.ok ByteArray.empty),
  .answered (.close 3) (.ok ()),
  .answered (.wait 100 .block) (.ok (.killed number))]

def oneProgram : Statement := ⟨⟨[], ⟨[['a']]⟩⟩, none, none, false⟩

theorem runs_killedJob_logged (number : Nat) {console : Console} {logging : List Event}
    (logs : Runs (console.log (oneProgram.announcement { console })) logging (.value ())) :
    Runs (oneProgram.run {} { console }) (logging ++ killedJob number)
      (.value (Pipeline.judged (.ok (.killed number)) none)) := by
  show Runs (console.log (oneProgram.announcement { console }) >>= fun _ => _) _ _
  refine logs.bind (Console.contained_log ..) ?_
  refine .call _ rfl <| .call _ rfl <| .fork 100 ?_ ?_
  · exact .call _ rfl <| .call _ rfl <| .call _ rfl <| .call _ rfl <| .exec "a" ["a"] _
  · refine .call _ rfl <| .call _ rfl <| .call _ rfl <| .call _ rfl <| ?_
    -- The reader of the channel has seen its end, so only the decoding is left.
    have told : Errno.ofBytes? ByteArray.empty = none := rfl
    cases decoded : WaitStatus.ofReport (.killed number) with
    | error errno =>
      simp only [Action.bind, decoded, Pipeline.judged]
      exact .done _
    | ok status =>
      simp only [Action.bind, decoded, told, Pipeline.judged]
      exact .done _

theorem runs_killedJob (number : Nat) : Runs (oneProgram.run {} {}) (killedJob number)
    (.value (Pipeline.judged (.ok (.killed number)) none)) :=
  @runs_killedJob_logged number {} [] (.done ())

theorem lawful_killedJob (number : Nat) {rest : List Event} (free_read : table 3 = .nothing)
    (free_write : table 4 = .nothing) (later : Lawful (table.afterAll (killedJob number)) rest) :
    Lawful table (killedJob number ++ rest) := by
  refine ⟨by simp [Event.Lawful, Call.gains], nofun,
    by simp [Event.Lawful, Call.gains, Call.leastGain, Table.after, free_read, free_write], ?_, ?_⟩
  · rintro _ _ _ _ _ _ _ ⟨⟩ - -
    have finished : Finished 4 startedSupervisor (.replaced "a" ["a"]) :=
      ⟨.inl (by simp), by simp [Accepts, startedSupervisor]⟩
    exact fun _ => ⟨[], rfl, fun _ _ => ⟨rfl, finished⟩, trivial⟩
  · have closed : Lawful (table.afterAll (killedJob number)) rest := later
    simpa [killedJob, startedSupervisor, Lawful, Event.Lawful, Call.gains, Call.leastGain,
      Table.after, ReportsArrive] using closed

theorem goes_on_after_end_killed :
    ∃ turns : List Turn, killedJob 9 ++ killedJob 15 = (turns.map Turn.trace).flatten ∧
      (∀ turn ∈ turns, Runs (turn.statement.run {} {}) turn.running (.value turn.result)) ∧
      UpToFailure [oneProgram, oneProgram] (turns.map Turn.ran) ∧
      143 = statusAfter 0 (turns.map Turn.ran) ∧
      false = (turns.map Turn.ran).any (·.2.fails) ∧
      ∀ i turn pid child program arguments report, turns[i]? = some turn →
        turn.statement.background = false →
        ⟨pid, child, .replaced program arguments⟩ ∈ children turn.running →
        .answered (.wait pid .block) (.ok report) ∈ turn.running → report ≠ .running →
        Consequence ⟨[oneProgram, oneProgram], {}⟩ turns i turn 143
          ⟨[oneProgram, oneProgram], {}⟩ report := by
  have told (status : WaitStatus) : Runs (record {} oneProgram {} (.ok (.finished status))) []
      (.value {}) := .done _
  have performs : Performs {} {} {} [(oneProgram, .ok (.finished (.signaled ⟨9⟩))),
      (oneProgram, .ok (.finished (.signaled ⟨15⟩)))]
      (killedJob 9 ++ [] ++ (killedJob 15 ++ [] ++ [])) {} :=
    .cons (runs_killedJob 9) (told _) (.cons (runs_killedJob 15) (told _) (.nil _))
  have run : Runs (Line.run ⟨[oneProgram, oneProgram], {}⟩ {} {})
      (killedJob 9 ++ [] ++ (killedJob 15 ++ [] ++ []))
      (.value (143, ⟨[oneProgram, oneProgram], {}⟩, {})) := by
    refine (runs_run_iff rfl).2 (.inl ⟨_, _, ?_, performs, rfl⟩)
    refine upToFailure_cons_iff.2 ⟨_, _, rfl, ?_⟩
    exact upToFailure_cons_iff.2 ⟨_, [], rfl, upToFailure_nil_iff.2 rfl⟩
  have lawful : Lawful (Table.start (· ∈ [0, 1, 2])) (killedJob 9 ++ (killedJob 15 ++ [])) := by
    apply lawful_killedJob
    · rfl
    · rfl
    · exact lawful_killedJob 15 rfl rfl trivial
  simp only [List.append_nil] at run lawful
  exact goes_on_after_end ⟨[oneProgram, oneProgram], {}⟩ {} {} (· ∈ [0, 1, 2]) _ 143 _ _ run rfl
    lawful (by decide)

/-- A line does not go on after every foreground statement that started all its programs. -/
theorem stops_after_nameless_end :
    ¬ ∀ (line : Line) (settings : Settings) (isOpen : Descriptor → Bool) (events : List Event)
      (status : Nat) (line' : Line) (jobs' : JobTable),
      Runs (line.run settings {}) events (.value (status, line', jobs')) →
      line.flags.error = false → settings.scheduling = .concurrent →
      Lawful (Table.start isOpen) events → isOpen standardInput = true →
      isOpen standardOutput = true →
      (∀ statement ∈ line.statements, statement.background = false ∧ statement.input = none ∧
        statement.output = none) →
      (∀ child ∈ children events, ∃ program arguments, child.fate = .replaced program arguments) →
      (∀ pid reply, .answered (.wait pid .block) reply ∈ events →
        ∃ number, 1 ≤ number ∧ number ≤ 64 ∧ reply = .ok (.killed number)) →
      line'.flags.error = false := by
  intro claim
  obtain ⟨writing, writes⟩ := Console.exists_error {} (RunError.system .invalid).message
  have told : Runs (record {} oneProgram {} (.error (.system .invalid))) (writing ++ [])
      (.value {}) := writes.bind (Console.contained_error ..) (.done _)
  rw [List.append_nil] at told
  have only := (runs_record told).1
  have later (table : Table) : Lawful table writing :=
    only.lawful (by rintro _ ⟨⟩ reply <;> rfl)
  have performs : Performs {} {} {} [(oneProgram, .error (.system .invalid))]
      (killedJob 34 ++ writing ++ []) {} :=
    .cons (runs_killedJob 34) told (.nil _)
  have run : Runs (Line.run ⟨[oneProgram], {}⟩ {} {}) (killedJob 34 ++ writing ++ [])
      (.value (1, ⟨[oneProgram], { error := true }⟩, {})) := by
    refine (runs_run_iff rfl).2 (.inl ⟨_, _, ?_, performs, rfl⟩)
    exact upToFailure_cons_iff.2 ⟨_, [], rfl, rfl⟩
  rw [List.append_nil] at run
  have marked := claim ⟨[oneProgram], {}⟩ {} (· ∈ [0, 1, 2]) _ _ _ _ run rfl rfl
    (lawful_killedJob 34 rfl rfl (later _)) rfl rfl (by decide) ?_ ?_
  · cases marked
  · rw [children_append, only.children_eq]
    rintro child member
    obtain rfl := List.mem_singleton.1 member
    exact ⟨_, _, rfl⟩
  · intro pid reply member
    rcases List.mem_append.1 member with job | notice
    · have answered : reply = .ok (.killed 34) := by simp [killedJob] at job; exact job.2
      exact ⟨34, by decide, by decide, answered⟩
    · cases only.of_mem notice

end Line

end PipelineShell
