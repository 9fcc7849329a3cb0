import PipelineShell.Proofs.Line.Opening
import PipelineShell.Proofs.Pipeline.Hygiene

namespace PipelineShell

open PipelineShell.Action

variable {α : Type} {table base : Table} {flags : Flags} {scheduling : Scheduling}

/-! ## The files of a statement -/

namespace Redirection

theorem careful_openPath? (path : Option Word) (mode : OpenMode) :
    (openPath? path mode).Careful (OrUnchanged table fun given later => table.Opens given later)
      table := by
  cases path with
  | none => exact .none table
  | some path =>
    have once : (perform (.openFile path.toString mode)).Careful
        (OrUnchanged table fun descriptor later => table.Opens (some descriptor) later) table := by
      refine ⟨trivial, fun reply lawful => ?_⟩
      cases reply with
      | error errno => exact rfl
      | ok descriptor => exact .one (lawful.2 descriptor (by simp [Call.gains])).1
    have opens : (openPath path mode).Careful
        (OrUnchanged table fun descriptor later => table.Opens (some descriptor) later) table := by
      unfold openPath
      split
      · exact rfl
      · refine (careful_uninterrupted once).bind fun opened later has => ?_
        cases opened with
        | error errno => exact has
        | ok descriptor => exact has
    refine opens.bind fun opened later has => ?_
    cases opened with
    | error error => exact has
    | ok descriptor => exact has

def IsNew (table : Table) (redirection : Redirection) (later : Table) : Prop :=
  ∃ middle, table.Opens redirection.input middle ∧ middle.Opens redirection.output later

theorem careful_openFor (statement : Statement) (standing : table.Standing) :
    (openFor statement).Careful (OrUnchanged table (IsNew table)) table := by
  refine (careful_openPath? ..).bind fun opened middle has => ?_
  cases opened with
  | error error => exact has
  | ok input =>
    have opens : table.Opens input middle := has
    refine (careful_openPath? ..).bind fun opened later has' => ?_
    cases opened with
    | ok output => exact ⟨middle, opens, has'⟩
    | error error =>
      obtain rfl : later = middle := has'
      refine (careful_closeAll fun descriptor member => ?_).bind fun _ closed same => ?_
      · exact standing.above (opens.free descriptor (by simpa using member))
      · subst same
        exact opens.without_eq

variable {redirection : Redirection}

theorem IsNew.keeps (isNew : IsNew base redirection table) : base.Keeps table := by
  obtain ⟨middle, opens_input, opens_output⟩ := isNew
  exact opens_input.keeps.trans opens_output.keeps

theorem IsNew.inputEnd_isOpen (isNew : IsNew base redirection table) (standing : base.Standing) :
    table redirection.inputEnd ≠ .nothing := by
  obtain ⟨middle, opens_input, opens_output⟩ := isNew
  exact opens_output.keeps.isOpen (opens_input.getD_isOpen (standing standardInput (by decide)))

theorem IsNew.outputEnd_isOpen (isNew : IsNew base redirection table) (standing : base.Standing) :
    table redirection.outputEnd ≠ .nothing := by
  obtain ⟨middle, opens_input, opens_output⟩ := isNew
  have middle_standing := standing.mono opens_input.keeps
  exact opens_output.getD_isOpen (middle_standing standardOutput (by decide))

theorem careful_close (isNew : IsNew base redirection table) (standing : base.Standing) :
    redirection.close.Careful (fun _ later => later = base) table := by
  obtain ⟨middle, opens_input, opens_output⟩ := isNew
  have opens := opens_input.next opens_output
  refine (careful_closeAll fun descriptor member => ?_).bind fun _ closed same => ?_
  · exact standing.above (opens_input.free descriptor (by simpa using member))
  subst same
  refine (careful_closeAll fun descriptor member => ?_).mono fun _ last same => ?_
  · exact standing.above (opens.free descriptor (by simpa using member))
  · exact same.trans opens.without_eq

end Redirection

/-! ## Statements and lines -/

theorem careful_of_messages {action : Action α} (calls : action.Calls Call.IsMessage) :
    action.Careful (fun _ later => later = table) table :=
  calls.careful fun _ message _ => by cases message <;> exact ⟨trivial, fun _ => rfl⟩

theorem Console.careful_log (console : Console) (message : String) :
    (console.log message).Careful (fun _ later => later = table) table :=
  careful_of_messages ((calls_log console message).mono fun _ => .of_warning)

theorem Statement.careful_run (statement : Statement) (settings : Settings)
    (standing : table.Standing) :
    (statement.run flags settings).Careful (fun _ later => later = table) table := by
  refine (Redirection.careful_openFor statement standing).bind fun opened later has => ?_
  cases opened with
  | error error => exact has
  | ok redirection =>
    have isNew : Redirection.IsNew table redirection later := has
    have closes := Redirection.careful_close isNew standing
    refine (Console.careful_log ..).bind fun _ logged same => ?_
    subst same
    refine careful_perform_bind trivial fun flushed _ => ?_
    cases flushed with
    | error cause => exact closes.bind fun _ _ same => same
    | ok _ =>
      refine (Pipeline.careful_runAsJob _ _ (standing.mono isNew.keeps)
        (isNew.inputEnd_isOpen standing) (isNew.outputEnd_isOpen standing)).bind
        fun _ ran same => ?_
      subst same
      exact closes.bind fun _ _ same => same

namespace Line

theorem careful_runStatements (settings : Settings) (standing : table.Standing)
    (progress : Progress) (statements : List Statement) :
    (runStatements settings flags progress statements).Careful (fun _ later => later = table)
      table := by
  induction statements generalizing progress with
  | nil => exact rfl
  | cons statement rest ih =>
    refine (statement.careful_run settings standing).bind fun result ran same => ?_
    subst same
    refine (careful_of_messages (calls_record ..)).bind fun _ told same => ?_
    subst same
    dsimp only
    split
    · exact rfl
    · exact ih _

theorem careful_run (line : Line) (settings : Settings) (jobs : JobTable)
    (standing : table.Standing) :
    (line.run settings jobs).Careful (fun _ later => later = table) table := by
  unfold Line.run
  split
  · exact rfl
  · exact (careful_runStatements settings standing _ _).bind fun _ _ same => same

end Line

/-! ## The children of an interpreter -/

/-- A child that the interpreter forks for the pipeline. If it is to report over a channel, it first
closes the other end. -/
structure Pipeline.IsJob (pipeline : Pipeline) (flags : Flags) (scheduling : Scheduling)
    (input output : Descriptor) (channel : Option Channel) (table : Table) (child : List Event)
    (fate : Fate) : Prop where
  run : Runs (closeAll (channel.map Channel.watcher).toList >>= fun _ =>
    pipeline.supervise input output flags scheduling (channel.map Channel.reporter) :
      Action (Except RunError JobOutcome)) child (.ended fate)
  input_open : table input ≠ .nothing
  watcher_new : ∀ watcher ∈ channel.map Channel.watcher, 2 < watcher ∧ input ≠ watcher

theorem Pipeline.forks_runAsJob (pipeline : Pipeline) (background : Bool)
    {input output : Descriptor} (standing : table.Standing) (input_open : table input ≠ .nothing) :
    (pipeline.runAsJob input output background flags scheduling).Forks
      (fun table child fate => ∃ input output channel,
        pipeline.IsJob flags scheduling input output channel table child fate) table := by
  have closes := fun descriptors => (calls_closeAll descriptors).any
  cases background with
  | true =>
    refine ⟨?_, fun reply other _ => ?_⟩
    · rintro _ ⟨⟩ child fate run
      exact ⟨input, output, none, run, input_open, nofun⟩
    · rcases reply with errno | _ | pid
      · trivial
      · exact absurd rfl other
      · trivial
  | false =>
    have creates : Channel.create.Calls fun _ => True :=
      calls_perform_bind trivial rfl fun reply => by cases reply <;> trivial
    refine creates.forks.bind Channel.steady_create.contained Channel.careful_create
      fun created made isNew => ?_
    cases created with
    | error errno => trivial
    | ok channel =>
      obtain ⟨offers, rfl⟩ := isNew
      refine ⟨?_, fun reply other _ => ?_⟩
      · rintro _ ⟨⟩ child fate run
        refine ⟨input, output, some channel, run, offers.keeps.isOpen input_open, ?_⟩
        rintro _ ⟨⟩
        exact ⟨standing.above offers.read_free, Table.ne_of_isOpen input_open offers.read_free⟩
      · rcases reply with errno | _ | pid
        · have gives_up : (closeAll [channel.watcher, channel.reporter] >>= fun _ =>
              pure (.error (.system errno)) : Action (Except RunError JobOutcome)).Calls
                fun _ => True := (closes _).bind fun _ => trivial
          exact gives_up.forks
        · exact absurd rfl other
        · have awaits := (Channel.calls_await channel.watcher).any
          have waits : (awaitJob channel pid).Calls fun _ => True := by
            refine (closes _).bind fun _ => awaits.bind fun failure => ?_
            refine calls_perform_bind trivial rfl fun reply => ?_
            cases reply with
            | error errno => trivial
            | ok report =>
              dsimp only
              split <;> trivial
          exact waits.forks

def Line.HasJob (statements : List Statement) (flags : Flags) (scheduling : Scheduling)
    (table : Table) (child : List Event) (fate : Fate) : Prop :=
  ∃ statement ∈ statements, ∃ input output channel,
    statement.pipeline.IsJob flags scheduling input output channel table child fate

theorem Statement.forks_run (statement : Statement) (settings : Settings)
    (standing : table.Standing) :
    (statement.run flags settings).Forks (Line.HasJob [statement] flags settings.scheduling)
      table := by
  have mine : ∀ table child fate, (∃ input output channel, statement.pipeline.IsJob flags
      settings.scheduling input output channel table child fate) →
        Line.HasJob [statement] flags settings.scheduling table child fate :=
    fun _ _ _ isJob => ⟨statement, .head _, isJob⟩
  have opens := Redirection.calls_openFor statement
  refine opens.forks.bind (Redirection.steady_openFor statement).contained
    (Redirection.careful_openFor statement standing) fun opened later has => ?_
  cases opened with
  | error error => trivial
  | ok redirection =>
    have isNew : Redirection.IsNew table redirection later := has
    have closes (result : StatementResult) :
        (redirection.close >>= fun _ => pure result).Calls IsPreparation :=
      (Redirection.calls_close redirection).bind fun _ => trivial
    refine (Console.calls_log ..).forks.bind (Console.contained_log ..)
      (Console.careful_log ..) fun _ logged same => ?_
    subst same
    have flushes : (perform .flush).Calls IsPreparation := calls_perform .flush rfl
    have flushing (table : Table) : (perform .flush).Careful (fun _ after => after = table) table :=
      ⟨trivial, fun _ _ => rfl⟩
    refine flushes.forks.bind (steady_perform rfl).contained (flushing _) fun flushed _ same => ?_
    subst same
    cases flushed with
    | error cause => exact (closes _).forks
    | ok _ =>
      refine ((Pipeline.forks_runAsJob _ _ (standing.mono isNew.keeps)
        (isNew.inputEnd_isOpen standing)).mono mine).bind (Pipeline.steady_runAsJob ..).contained
        (Pipeline.careful_runAsJob _ _ (standing.mono isNew.keeps) (isNew.inputEnd_isOpen standing)
          (isNew.outputEnd_isOpen standing)) fun outcome ran _ => ?_
      exact (closes outcome).forks

namespace Line

theorem forks_runStatements (settings : Settings) (standing : table.Standing) (progress : Progress)
    (statements : List Statement) :
    (runStatements settings flags progress statements).Forks
      (Line.HasJob statements flags settings.scheduling) table := by
  induction statements generalizing progress with
  | nil => trivial
  | cons statement rest ih =>
    have first : ∀ table child fate, Line.HasJob [statement] flags settings.scheduling table child
        fate → Line.HasJob (statement :: rest) flags settings.scheduling table child fate := by
      rintro _ _ _ ⟨other, member, isJob⟩
      exact ⟨other, List.mem_singleton.1 member ▸ .head _, isJob⟩
    refine ((statement.forks_run settings standing).mono first).bind
      (statement.contained_run ..) (statement.careful_run settings standing)
      fun result ran same => ?_
    subst same
    refine (calls_record ..).forks.bind (contained_record ..)
      (careful_of_messages (calls_record ..)) fun _ told same => ?_
    subst same
    dsimp only
    split
    · trivial
    · refine (ih _).mono ?_
      rintro _ _ _ ⟨other, member, isJob⟩
      exact ⟨other, .tail _ member, isJob⟩

theorem forks_run (line : Line) (settings : Settings) (jobs : JobTable)
    (standing : table.Standing) :
    (line.run settings jobs).Forks (Line.HasJob line.statements line.flags settings.scheduling)
      table := by
  unfold Line.run
  split
  · trivial
  · exact (forks_runStatements settings standing _ _).bind (contained_runStatements ..)
      (careful_runStatements settings standing _ _) fun _ _ _ => trivial

end Line

/-! ## The whole -/

def Holdings.standard : Holdings := .start (· ≤ 2) fun _ => false

theorem Holdings.tidy_standard : standard.Tidy := by
  refine ⟨fun descriptor at_most => ⟨.original descriptor, ?_⟩,
    fun descriptor above slot member => ?_⟩
  · simp [standard, start, at_most]
  · simp [standard, start, Nat.not_le.2 above] at member

variable {events before child after : List Event} {pid : Int} {fate : Fate}

theorem Pipeline.IsJob.keepsEnds {pipeline : Pipeline} {input output : Descriptor}
    {channel : Option Channel} {holdings : Holdings} {closing job : List Event} {end_ : Fate}
    (isJob : pipeline.IsJob flags scheduling input output channel (holdings.afterAll before).table
      (closing ++ job) fate)
    (closes : Runs (closeAll (channel.map Channel.watcher).toList) closing (.value ()))
    (orderly : holdings.Orderly) (tidy : (holdings.afterAll before).Tidy)
    (lawful : Lawful (holdings.afterAll before).table (closing ++ job)) :
    pipeline.KeepsEnds input flags scheduling
      ((holdings.afterAll before).inChild.afterAll closing) job
      (census holdings (before ++ .forked pid (closing ++ job) fate :: after) end_) := by
  obtain ⟨run, input_open, watcher_new⟩ := isJob
  have only := closes.only (calls_closeAll _)
  have above : ∀ watcher ∈ (channel.map Channel.watcher).toList, 2 < watcher :=
    fun watcher member => (watcher_new watcher (by simpa using member)).1
  have kept : input ∉ (channel.map Channel.watcher).toList :=
    fun member => (watcher_new input (by simpa using member)).2 rfl
  have tidy_child : (holdings.afterAll before).inChild.Tidy := tidy.of_slot_eq rfl
  have lawful_child : Lawful (holdings.afterAll before).inChild.table (closing ++ job) := lawful
  obtain ⟨-, tidy_job, leaves⟩ :=
    closes.careful (careful_closeAll above) lawful_child.append.1 tidy_child
  have lawful_job : Lawful ((holdings.afterAll before).inChild.afterAll closing).table job := by
    rw [Holdings.table_afterAll]
    exact lawful_child.append.2
  have still_open : ((holdings.afterAll before).inChild.afterAll closing).table input ≠
      .nothing := by
    rw [leaves () rfl, Table.without, if_neg kept]
    exact input_open
  have orderly_job := (orderly.afterAll before).inChild.afterAll closing
  have keeps := pipeline.keepsEnds (closes.after_first run) tidy_job orderly_job lawful_job
    still_open fate
  refine keeps.mono fun lineage object name named future held => ?_
  refine HeldOnlyBy.of_child orderly named future.of_afterAll ?_
  rw [census_append, only.offspring_eq, List.nil_append]
  exact held

theorem Statement.slot_run {statement : Statement} {settings : Settings} {running : List Event}
    {result : StatementResult} {holdings : Holdings}
    (run : Runs (statement.run flags settings) running (.value result)) (tidy : holdings.Tidy)
    (lawful : Lawful holdings.table running) :
    (holdings.afterAll running).slot = holdings.slot := by
  obtain ⟨-, -, leaves⟩ := run.careful (statement.careful_run settings tidy.standing) lawful tidy
  funext descriptor
  by_cases free : holdings.slot descriptor = none
  · rw [free]
    by_contra isOpen
    have still_open := Holdings.isOpen_iff.2 isOpen
    rw [leaves result rfl] at still_open
    exact Holdings.isOpen_iff.1 still_open free
  · have unbound := (run.spared (statement.spares_run flags settings) lawful
      (Holdings.isOpen_iff.2 free)).1
    exact Holdings.slot_afterAll unbound holdings

namespace Line

/-- Whatever a line asks for, however the system answers and whichever moment is looked at: every
program starts with the standard descriptors open and no others; every child of the interpreter is
the job of a statement, and of all processes that there are, only the stages that need them hold the
ends of its pipes; and after each statement the interpreter holds what it held before. -/
theorem keeps_descriptors (line : Line) (settings : Settings) (jobs : JobTable)
    (events : List Event) (outcome : Outcome (Nat × Line × JobTable))
    (run : Runs (line.run settings jobs) events outcome)
    (lawful : Lawful Holdings.standard.table events) :
    (∀ image ∈ images .standard events .pending, image.HoldsStandard) ∧
    (∀ before pid child fate after, events = before ++ .forked pid child fate :: after →
      (∃ statement ∈ line.statements, ∃ input output channel,
        statement.pipeline.IsJob line.flags settings.scheduling input output channel
          (Holdings.standard.afterAll before).table child fate) ∧
      ∀ (pipeline : Pipeline) input output channel closing job,
        pipeline.IsJob line.flags settings.scheduling input output channel
          (Holdings.standard.afterAll before).table child fate →
        Runs (closeAll (channel.map Channel.watcher).toList) closing (.value ()) →
        child = closing ++ job →
        pipeline.KeepsEnds input line.flags settings.scheduling
          ((Holdings.standard.afterAll before).inChild.afterAll closing) job
          (census .standard events .pending)) ∧
    ∀ first statement rest before running after progress result,
      line.statements = first ++ statement :: rest →
      Runs (runStatements settings line.flags { jobs } first) before (.value progress) →
      Runs (statement.run line.flags settings) running (.value result) →
      events = before ++ (running ++ after) →
      (Holdings.standard.afterAll (before ++ running)).slot =
        (Holdings.standard.afterAll before).slot := by
  have tidy := Holdings.tidy_standard
  have orderly : Holdings.standard.Orderly := Holdings.Orderly.start _ _
  have careful := line.careful_run settings jobs tidy.standing
  refine ⟨?_, ?_, ?_⟩
  · intro image member
    refine (run.careful careful lawful tidy).1 image ?_
    rw [← List.append_nil events, images_append]
    exact List.mem_append_left _ member
  · intro before pid child fate after split
    subst split
    obtain ⟨_, run_before⟩ := run.exists_first
    have tidy_before := (run_before.careful careful lawful.append.1 tidy).2.1
    have lawful_fork := lawful.append.2.1
    have hasJob := run.forks (line.forks_run settings jobs tidy.standing) lawful rfl
    rw [← Holdings.table_afterAll] at hasJob lawful_fork
    refine ⟨hasJob, fun pipeline input output channel closing job isJob closes split => ?_⟩
    subst split
    exact isJob.keepsEnds closes orderly tidy_before lawful_fork
  · intro first statement rest before running after progress result _ runs_before runs split
    subst split
    have tidy_before := (runs_before.careful
      (careful_runStatements settings tidy.standing _ first) lawful.append.1 tidy).2.1
    rw [Holdings.afterAll_append]
    refine Statement.slot_run runs tidy_before ?_
    rw [Holdings.table_afterAll]
    exact lawful.append.2.append.1

def firstOfPair : List Event := [
  .answered (.close 6) (.ok ()),
  .answered (.duplicateTo 5 standardOutput) (.ok ()),
  .answered (.setSignal Signal.interrupt.number false) (.ok ()),
  .answered (.setSignal Signal.brokenPipe.number false) (.ok ())]

def startOfPair : List Event := [
  .answered .pipe (.ok (3, 5)),
  .answered .pipe (.ok (6, 7)),
  .forked 101 firstOfPair (.replaced "a" ["a"]),
  .answered (.close 7) (.ok ()),
  .answered (.read 6 4) (.ok .empty),
  .answered (.close 6) (.ok ()),
  .answered (.close 5) (.ok ())]

def endOfPair : List Event := [
  .answered (.duplicateFrom standardOutput 3) (.ok 5),
  .answered (.duplicateTo 3 standardInput) (.ok ()),
  .answered (.setSignal Signal.interrupt.number false) (.ok ()),
  .answered (.setSignal Signal.brokenPipe.number false) (.ok ())]

def pairRun : List Event := [
  .answered .flush (.ok ()),
  .answered .pipe (.ok (3, 4)),
  .forked 100 (.answered (.close 3) (.ok ()) :: (startOfPair ++ endOfPair)) (.replaced "b" ["b"]),
  .answered (.close 4) (.ok ()),
  .answered (.read 3 4) (.ok .empty),
  .answered (.close 3) (.ok ()),
  .answered (.wait 100 .block) (.ok (.exited 0))]

theorem lawful_pairRun : Lawful Holdings.standard.table pairRun := by
  have finished : Finished 4 (.answered (.close 3) (.ok ()) :: (startOfPair ++ endOfPair))
      (.replaced "b" ["b"]) :=
    ⟨.inl (by simp), by simp [Accepts, startOfPair, endOfPair]⟩
  have finished_first : Finished 7 firstOfPair (.replaced "a" ["a"]) :=
    ⟨.inl (by simp), by simp [Accepts, firstOfPair]⟩
  rw [Holdings.standard, Holdings.table_start]
  refine ⟨?_, ?_, ?_, ?_, ?_⟩
  · simp [Event.Lawful, Call.gains]
  · simp [ReportsArrive]
  · simp [Event.Lawful, Call.gains, Call.leastGain, Table.start, Table.after]
  · rintro _ _ _ _ _ _ _ ⟨⟩ - -
    exact fun _ => ⟨[], rfl, fun _ _ => ⟨rfl, finished⟩, trivial⟩
  refine ⟨⟨?_, ?_, ?_, ?_, ?_, ?_, ?_⟩, ?_, ?_⟩
  · simp [Event.Lawful, Call.gains]
  · simp [ReportsArrive]
  · simp [Event.Lawful, Call.gains, Call.leastGain, Table.start, Table.after]
  · simp [ReportsArrive]
  · simp [Event.Lawful, Call.gains, Call.leastGain, Table.start, Table.after]
  · rintro _ _ _ _ _ _ _ ⟨⟩ - -
    exact fun _ => ⟨[], rfl, fun _ _ => ⟨rfl, finished_first⟩, trivial⟩
  · simp [firstOfPair, endOfPair, Lawful, Event.Lawful, Call.gains, Call.leastGain, Table.after,
      ReportsArrive]
  · simp [ReportsArrive]
  · simp [Lawful, Event.Lawful, Call.gains, ReportsArrive]

theorem keeps_descriptors_pair :
    (∀ image ∈ images .standard pairRun .pending, image.HoldsStandard) ∧
    HeldOnlyBy [0, 0] (.writeEnd ⟨[0], 0⟩) (census .standard pairRun .pending) ∧
    HeldOnlyBy [0] (.readEnd ⟨[0], 0⟩) (census .standard pairRun .pending) := by
  let pair : Statement := ⟨⟨[⟨[['a']]⟩], ⟨[['b']]⟩⟩, none, none, false⟩
  have starts : Runs (startStage ⟨[['a']]⟩ standardInput .concurrent) startOfPair
      (.value (.ok 3)) := by
    refine .call _ rfl <| .call _ rfl <| .fork 101 ?_ ?_
    · exact .call _ rfl <| .call _ rfl <| .call _ rfl <| .call _ rfl <| .exec "a" ["a"] _
    · exact .call _ rfl <| .call _ rfl <| .call _ rfl <| .call _ rfl <| .done _
  have supervises : Runs (pair.pipeline.supervise standardInput standardOutput {} .concurrent
      (some 4) : Action (Except RunError JobOutcome)) (startOfPair ++ endOfPair)
      (.ended (.replaced "b" ["b"])) := by
    refine .call _ rfl <| .call _ rfl <| .fork 101 ?_ ?_
    · exact .call _ rfl <| .call _ rfl <| .call _ rfl <| .call _ rfl <| .exec "a" ["a"] _
    · exact .call _ rfl <| .call _ rfl <| .call _ rfl <| .call _ rfl <| .call _ rfl <|
        .call _ rfl <| .call _ rfl <| .call _ rfl <| .exec "b" ["b"] _
  have runs : Runs (pair.run {} {}) pairRun (.value (.ok (.finished (.exited 0)))) := by
    refine .call _ rfl <| .call _ rfl <| .fork 100 ?_ ?_
    · refine .call _ rfl <| (runs_bind_iff_of_neverReturns ?_).2 supervises
      exact (Pipeline.neverReturns_supervise .. :
        (pair.pipeline.supervise standardInput standardOutput {} .concurrent (some 4)).NeverReturns)
    · exact .call _ rfl <| .call _ rfl <| .call _ rfl <| .call _ rfl <| .done _
  have told : Runs (record {} pair {} (.ok (.finished (.exited 0)))) [] (.value {}) := .done _
  have run : Runs (Line.run ⟨[pair], {}⟩ {} {}) (pairRun ++ [] ++ [])
      (.value (0, ⟨[pair], {}⟩, {})) := by
    refine (runs_run_iff rfl).2 (.inl ⟨_, _, ?_, .cons runs told (.nil _), rfl⟩)
    exact upToFailure_cons_iff.2 ⟨_, [], rfl, upToFailure_nil_iff.2 rfl⟩
  simp only [List.append_nil] at run
  obtain ⟨images, ends, -⟩ := keeps_descriptors _ _ _ _ _ run lawful_pairRun
  have isJob : pair.pipeline.IsJob {} .concurrent standardInput standardOutput (some ⟨3, 4⟩)
      (Holdings.standard.afterAll [.answered .flush (.ok ()), .answered .pipe (.ok (3, 4))]).table
      ([.answered (.close 3) (.ok ())] ++ (startOfPair ++ endOfPair)) (.replaced "b" ["b"]) :=
    ⟨.call _ rfl supervises, by decide, by decide⟩
  have keeps := (ends [_, _] 100 _ _ _ rfl).2 _ _ _ _ _ _ isJob (.call _ rfl (.done _)) rfl
  exact ⟨images, @keeps.writeEnd [] [] _ _ [] _ _ _ _ _ rfl (.done _) starts rfl rfl,
    @keeps.last [] _ _ [] _ _ _ rfl (.done _) starts rfl⟩

end Line

end PipelineShell
