import PipelineShell.Proofs.Containment

namespace PipelineShell

open PipelineShell.Action

abbrev StatementResult := Except RunError JobOutcome

namespace StatementResult

def fails : StatementResult → Bool
  | .ok (.failed _) | .error _ => true
  | .ok (.finished _) | .ok (.background _) => false

def backgroundPid? : StatementResult → Option Int
  | .ok (.background pid) => some pid
  | .ok (.finished _) | .ok (.failed _) | .error _ => none

def exitStatus : StatementResult → Nat
  | .ok (.finished (.exited code)) => code
  | .ok (.finished (.signaled signal)) => 128 + signal.number
  | .ok (.finished .stillAlive) => 1
  | .ok (.background _) => 0
  | .ok (.failed _) => 127
  | .error _ => 1

end StatementResult

def Job.numbered (first : Nat) (started : List (Int × Word)) : List Job :=
  (started.zipIdx first).map fun ((pid, command), id) => ⟨id, pid, command⟩

theorem Job.numbered_append (first : Nat) (started later : List (Int × Word)) :
    numbered first (started ++ later) =
      numbered first started ++ numbered (first + started.length) later := by
  rw [numbered, List.zipIdx_append, List.map_append]
  rfl

namespace JobTable

/-- The table has been given one job for each of these processes and commands. -/
structure Gains (table : JobTable) (started : List (Int × Word)) (table' : JobTable) : Prop where
  jobs_eq : table'.jobs = table.jobs ++ Job.numbered table.nextId started
  nextId_eq : table'.nextId = table.nextId + started.length

namespace Gains

variable {table table' table'' : JobTable} {started later : List (Int × Word)}

theorem refl (table : JobTable) : table.Gains [] table :=
  ⟨(List.append_nil _).symm, rfl⟩

theorem trans (gains : table.Gains started table') (gains' : table'.Gains later table'') :
    table.Gains (started ++ later) table'' where
  jobs_eq := by
    rw [gains'.jobs_eq, gains.jobs_eq, gains.nextId_eq, Job.numbered_append, List.append_assoc]
  nextId_eq := by
    rw [gains'.nextId_eq, gains.nextId_eq, List.length_append, Nat.add_assoc]

theorem unique (gains : table.Gains started table') (gains' : table.Gains started table'') :
    table' = table'' :=
  JobTable.ext (gains.jobs_eq.trans gains'.jobs_eq.symm)
    (gains.nextId_eq.trans gains'.nextId_eq.symm)

end Gains

theorem gains_of_add? {table table' : JobTable} {pid : Int} {command : Word}
    (added : table.add? pid command = some table') : table.Gains [(pid, command)] table' := by
  unfold add? at added
  split at added
  · cases added
    exact ⟨Job.insert_eq_append table.below, rfl⟩
  · cases added

theorem add_cases (table : JobTable) (pid : Int) (command : Word) :
    (∃ table', table.add pid command = .done (table.nextId, table') ∧
      table.Gains [(pid, command)] table') ∨
    (table.nextId + 1 = idLimit ∧ table.add pid command = giveUp) := by
  cases added : table.add? pid command with
  | some table' => exact .inl ⟨table', by rw [add, added]; rfl, gains_of_add? added⟩
  | none =>
    refine .inr ⟨?_, by rw [add, added]⟩
    have inRange := table.inRange
    unfold add? at added
    split at added
    · cases added
    · omega

end JobTable

namespace Line

abbrev Ran := Statement × StatementResult

def startedJobs (ran : List Ran) : List (Int × Word) :=
  ran.filterMap fun (statement, result) => result.backgroundPid?.map (·, statement.text)

@[simp] theorem startedJobs_nil : startedJobs [] = [] := rfl

theorem startedJobs_cons (first : Ran) (ran : List Ran) :
    startedJobs (first :: ran) = startedJobs [first] ++ startedJobs ran :=
  List.filterMap_append (l := [first])

/-- The events of statements that run one after the other, those of each statement and those of
telling the user what has come of it, and what this makes of the job table. -/
inductive Performs (settings : Settings) (flags : Flags) :
    JobTable → List Ran → List Event → JobTable → Prop
  | nil (jobs : JobTable) : Performs settings flags jobs [] [] jobs
  | cons {jobs jobs' jobs'' : JobTable} {statement : Statement} {result : StatementResult}
      {ran : List Ran} {running telling rest : List Event}
      (run : Runs (statement.run flags settings) running (.value result))
      (told : Runs (record settings statement jobs result) telling (.value jobs'))
      (others : Performs settings flags jobs' ran rest jobs'') :
      Performs settings flags jobs ((statement, result) :: ran) (running ++ telling ++ rest) jobs''

/-- Statements that have passed, and the next one, in which or in telling about which the process
stands or has given up. -/
def BreaksOff (settings : Settings) (flags : Flags) (jobs : JobTable)
    (statements : List Statement) (events : List Event) (fate : Fate) : Prop :=
  ∃ ran statement rest before after jobs',
    statements = ran.map Prod.fst ++ statement :: rest ∧
    (∀ each ∈ ran, each.2.fails = false) ∧
    events = before ++ after ∧ Performs settings flags jobs ran before jobs' ∧
    Runs (statement.run flags settings >>= record settings statement jobs') after (.ended fate) ∧
    (fate = .pending ∨
      fate = .exited panicStatus ∧ (CutOff events ∨ jobs'.nextId + 1 = JobTable.idLimit))

/-- The statements `ran` are those that a line of these statements runs: all up to the first that
fails. -/
structure UpToFailure (statements : List Statement) (ran : List Ran) : Prop where
  in_order : ran.map Prod.fst <+: statements
  passed : ∀ each ∈ ran.dropLast, each.2.fails = false
  complete : ran.map Prod.fst = statements ∨ ∃ last ∈ ran.getLast?, last.2.fails = true

def statusAfter (initial : Nat) (ran : List Ran) : Nat :=
  (ran.getLast?.map fun last => last.2.exitStatus).getD initial

@[simp] theorem statusAfter_nil (initial : Nat) : statusAfter initial [] = initial := rfl

theorem statusAfter_cons (initial : Nat) (first : Ran) (ran : List Ran) :
    statusAfter initial (first :: ran) = statusAfter first.2.exitStatus ran := by
  cases ran with
  | nil => rfl
  | cons second ran => simp [statusAfter, List.getLast?_cons]

theorem Progress.after_eq (jobs : JobTable) (result : StatementResult) :
    Progress.after jobs result = ⟨result.exitStatus, result.fails, jobs⟩ := by
  rcases result with error | (code | signal | _) | errno | pid <;> rfl

theorem lasting_record {room : Nat} {settings : Settings} {statement : Statement}
    {jobs : JobTable} {result : StatementResult}
    (fits : result.backgroundPid?.isSome = true → room = 0 ∨ jobs.nextId + 1 < JobTable.idLimit) :
    (record settings statement jobs result).Lasting room := by
  rcases result with error | status | errno | pid
  · exact (Console.lasting_error ..).bind fun _ _ _ => lasting_done _
  · exact lasting_done _
  · exact (Console.lasting_log ..).bind fun _ _ _ => lasting_done _
  · rcases jobs.add_cases pid statement.text with ⟨table', added, -⟩ | ⟨full, gives_up⟩
    · rw [record, added]
      exact (Console.lasting_print _).bind fun _ _ _ => lasting_done _
    · obtain rfl : room = 0 := (fits rfl).resolve_right (by omega)
      rw [record, gives_up]
      exact lasting_giveUp.bind fun _ _ run => nomatch run

theorem contained_record (settings : Settings) (statement : Statement) (jobs : JobTable)
    (result : StatementResult) : (record settings statement jobs result).Contained :=
  (lasting_record fun _ => .inl rfl).contained

theorem calls_record (settings : Settings) (statement : Statement) (jobs : JobTable)
    (result : StatementResult) : (record settings statement jobs result).Calls Call.IsMessage := by
  have warns {action : Action Unit}
      (calls : action.Calls fun request => ∃ part, request = .write standardError part) :
      (action >>= fun _ => done jobs).Calls Call.IsMessage :=
    (calls.mono fun _ => .of_warning).bind fun _ => trivial
  rcases result with error | status | errno | pid
  · exact warns (Console.calls_error ..)
  · trivial
  · exact warns (Console.calls_log ..)
  · rcases jobs.add_cases pid statement.text with ⟨table', added, -⟩ | ⟨-, full⟩
    · rw [record, added]
      exact (Console.calls_print _).bind fun _ => trivial
    · rw [record, full]
      exact nofun

theorem runs_record {settings : Settings} {statement : Statement} {jobs jobs' : JobTable}
    {result : StatementResult} {events : List Event}
    (run : Runs (record settings statement jobs result) events (.value jobs')) :
    Only Call.IsMessage events ∧ jobs.Gains (startedJobs [(statement, result)]) jobs' := by
  refine ⟨run.only (calls_record ..), ?_⟩
  rcases result with error | status | errno | pid
  · obtain ⟨_, -, rfl⟩ := run.before_done (Console.contained_error ..)
    exact .refl _
  · obtain ⟨-, ⟨⟩⟩ := runs_done_iff.1 run
    exact .refl _
  · obtain ⟨_, -, rfl⟩ := run.before_done (Console.contained_log ..)
    exact .refl _
  · rcases jobs.add_cases pid statement.text with ⟨table', added, gains⟩ | ⟨-, full⟩
    · simp only [record, added, done_bind] at run
      obtain ⟨_, -, rfl⟩ := run.before_done (Console.contained_print _)
      exact gains
    · rw [record, full] at run
      cases run with
      | call reply => exact nomatch (reply : Empty)

theorem record_ended {settings : Settings} {statement : Statement} {jobs : JobTable}
    {result : StatementResult} {events : List Event} {fate : Fate}
    (run : Runs (record settings statement jobs result) events (.ended fate)) :
    fate = .pending ∨ fate = .exited panicStatus ∧
      (CutOff events ∨ jobs.nextId + 1 = JobTable.idLimit) := by
  by_cases free : jobs.nextId + 1 < JobTable.idLimit
  · exact (Lasting.cutOff (fun _ => lasting_record fun _ => .inr free) run).imp_right
      (And.imp_right .inl)
  · have full : jobs.nextId + 1 = JobTable.idLimit := by have := jobs.inRange; omega
    exact ((lasting_record fun _ => .inl rfl).ended run).imp_right (And.imp_right fun _ => .inr full)

theorem upToFailure_nil_iff {ran : List Ran} : UpToFailure [] ran ↔ ran = [] := by
  constructor
  · intro h
    simpa using h.in_order
  · rintro rfl
    exact ⟨List.prefix_rfl, nofun, .inl rfl⟩

theorem upToFailure_cons_iff {statement : Statement} {statements : List Statement}
    {ran : List Ran} :
    UpToFailure (statement :: statements) ran ↔ ∃ result others,
      ran = (statement, result) :: others ∧
        if result.fails then others = [] else UpToFailure statements others := by
  constructor
  · rintro ⟨in_order, passed, complete⟩
    rcases ran with _ | ⟨⟨first, result⟩, others⟩
    · simp at complete
    · obtain ⟨rfl, later⟩ : first = statement ∧ others.map Prod.fst <+: statements := by
        simpa [List.cons_prefix_cons] using in_order
      refine ⟨result, others, rfl, ?_⟩
      rcases others with _ | ⟨second, others⟩
      · cases fails : result.fails with
        | true => simp
        | false => exact ⟨later, nofun, by simpa [fails] using complete⟩
      · have first_passed : result.fails = false := passed (first, result) (by simp)
        rw [first_passed]
        refine ⟨later, fun each member => passed each ?_, ?_⟩
        · simpa using .inr member
        · simpa [List.getLast?_cons] using complete
  · rintro ⟨result, others, rfl, h⟩
    cases fails : result.fails with
    | true =>
      obtain rfl : others = [] := by simpa [fails] using h
      exact ⟨by simp, nofun, .inr ⟨_, rfl, fails⟩⟩
    | false =>
      obtain ⟨in_order, passed, complete⟩ : UpToFailure statements others := by
        simpa [fails] using h
      refine ⟨by simpa using in_order, fun each member => ?_, ?_⟩
      · rcases others with _ | ⟨second, others⟩
        · cases member
        · rcases List.mem_cons.1 member with rfl | member
          · exact fails
          · exact passed each member
      · rcases complete with complete | ⟨last, member, last_fails⟩
        · exact .inl (by simp [complete])
        · refine .inr ⟨last, ?_, last_fails⟩
          simp [List.getLast?_cons, Option.mem_def.1 member]

theorem runs_runStatements_cons_iff {settings : Settings} {flags : Flags}
    {progress : Progress} {statement : Statement} {statements : List Statement}
    {events : List Event} {outcome : Outcome Progress} :
    Runs (runStatements settings flags progress (statement :: statements)) events outcome ↔
      (∃ (result : StatementResult) (jobs : JobTable) (running telling rest : List Event),
        events = running ++ telling ++ rest ∧
        Runs (statement.run flags settings) running (.value result) ∧
        Runs (record settings statement progress.jobs result) telling (.value jobs) ∧
        Runs (if result.fails then pure (Progress.after jobs result)
          else runStatements settings flags (Progress.after jobs result) statements) rest
          outcome) ∨
      ∃ fate, outcome = .ended fate ∧
        Runs (statement.run flags settings >>= record settings statement progress.jobs) events
          (.ended fate) := by
  have parts : runStatements settings flags progress (statement :: statements) =
      statement.run flags settings >>= fun (result : StatementResult) =>
        record settings statement progress.jobs result >>= fun jobs =>
          if result.fails then pure (Progress.after jobs result)
          else runStatements settings flags (Progress.after jobs result) statements := by
    simp only [runStatements, Progress.after_eq]
  rw [parts, Runs.bind_iff (by simp)]
  simp only [Runs.bind_iff (contained_record ..), Runs.bind_iff (statement.contained_run ..)]
  constructor
  · rintro (⟨running, _, result, rfl, run, ⟨telling, rest, jobs, rfl, told, run'⟩ |
      ⟨fate, rfl, told⟩⟩ | ⟨fate, rfl, run⟩)
    · exact .inl ⟨result, jobs, running, telling, rest, by simp, run, told, run'⟩
    · exact .inr ⟨fate, rfl, .inl ⟨running, _, result, rfl, run, told⟩⟩
    · exact .inr ⟨fate, rfl, .inr ⟨fate, rfl, run⟩⟩
  · rintro (⟨result, jobs, running, telling, rest, rfl, run, told, run'⟩ |
      ⟨fate, rfl, ⟨running, telling, result, rfl, run, told⟩ | ⟨_, same, run⟩⟩)
    · exact .inl ⟨running, telling ++ rest, result, by simp, run,
        .inl ⟨telling, rest, jobs, rfl, told, run'⟩⟩
    · exact .inl ⟨running, telling, result, rfl, run, .inr ⟨fate, rfl, told⟩⟩
    · cases same
      exact .inr ⟨fate, rfl, run⟩

theorem Performs.gains {settings : Settings} {flags : Flags} {jobs jobs' : JobTable}
    {ran : List Ran} {events : List Event}
    (performs : Performs settings flags jobs ran events jobs') :
    jobs.Gains (startedJobs ran) jobs' := by
  induction performs with
  | nil jobs => exact .refl jobs
  | cons run told others ih =>
    rw [startedJobs_cons]
    exact (runs_record told).2.trans ih

namespace BreaksOff

variable {settings : Settings} {flags : Flags} {jobs jobs' : JobTable} {statement : Statement}
  {statements : List Statement} {result : StatementResult} {events running telling : List Event}
  {fate : Fate}

theorem fate_eq
    (breaks : Runs (statement.run flags settings >>= record settings statement jobs) events
      (.ended fate)) :
    fate = .pending ∨
      fate = .exited panicStatus ∧ (CutOff events ∨ jobs.nextId + 1 = JobTable.idLimit) := by
  rcases (Runs.bind_iff (by simp)).1 breaks with
    ⟨running, telling, result, rfl, -, told⟩ | ⟨_, same, run⟩
  · refine (record_ended told).imp_right (And.imp_right (Or.imp_left fun cutOff => ?_))
    exact cutOff.prepend running
  · cases same
    exact (Lasting.cutOff (fun _ => statement.lasting_run ..) run).imp_right (And.imp_right .inl)

theorem intro {ran : List Ran} {rest : List Statement} {before after : List Event}
    (passed : ∀ each ∈ ran, each.2.fails = false)
    (performs : Performs settings flags jobs ran before jobs')
    (breaks : Runs (statement.run flags settings >>= record settings statement jobs') after
      (.ended fate)) :
    BreaksOff settings flags jobs (ran.map Prod.fst ++ statement :: rest) (before ++ after) fate :=
  ⟨ran, statement, rest, before, after, jobs', rfl, passed, rfl, performs, breaks,
    (fate_eq breaks).imp_right (And.imp_right (Or.imp_left (·.prepend before)))⟩

theorem cons (run : Runs (statement.run flags settings) running (.value result))
    (told : Runs (record settings statement jobs result) telling (.value jobs'))
    (passes : result.fails = false)
    (breaks : BreaksOff settings flags jobs' statements events fate) :
    BreaksOff settings flags jobs (statement :: statements) (running ++ telling ++ events)
      fate := by
  obtain ⟨ran, next, rest, before, after, last, rfl, passed, rfl, performs, breaks, -⟩ := breaks
  rw [← List.append_assoc]
  exact @intro _ _ _ _ _ _ ((statement, result) :: ran) _ _ _
    (List.forall_mem_cons.2 ⟨passes, passed⟩) (.cons run told performs) breaks

theorem cases_cons (breaks : BreaksOff settings flags jobs (statement :: statements) events fate) :
    Runs (statement.run flags settings >>= record settings statement jobs) events (.ended fate) ∨
    ∃ (result : StatementResult) (jobs' : JobTable) (running telling rest : List Event),
      events = running ++ telling ++ rest ∧
      Runs (statement.run flags settings) running (.value result) ∧
      Runs (record settings statement jobs result) telling (.value jobs') ∧
      result.fails = false ∧ BreaksOff settings flags jobs' statements rest fate := by
  obtain ⟨ran, next, rest, before, after, last, in_order, passed, rfl, performs, breaks, -⟩ :=
    breaks
  cases performs with
  | nil =>
    cases in_order
    exact .inl breaks
  | @cons _ jobs' _ _ result others running telling later run told performs =>
    cases in_order
    obtain ⟨passes, passed⟩ := List.forall_mem_cons.1 passed
    exact .inr ⟨result, jobs', running, telling, later ++ after, by simp, run, told, passes,
      .intro passed performs breaks⟩

end BreaksOff

/-- A failure is the last thing that a line comes to, so the status and the flag are about it. -/
theorem runs_runStatements_iff {settings : Settings} {flags : Flags} {statements : List Statement}
    {status : Nat} {jobs : JobTable} {events : List Event} {outcome : Outcome Progress} :
    Runs (runStatements settings flags ⟨status, false, jobs⟩ statements) events outcome ↔
      (∃ ran jobs', UpToFailure statements ran ∧ Performs settings flags jobs ran events jobs' ∧
        outcome = .value ⟨statusAfter status ran, ran.any (·.2.fails), jobs'⟩) ∨
      ∃ fate, outcome = .ended fate ∧ BreaksOff settings flags jobs statements events fate := by
  induction statements generalizing status jobs events with
  | nil =>
    simp only [runStatements, pure_eq, runs_done_iff, upToFailure_nil_iff]
    constructor
    · rintro ⟨rfl, rfl⟩
      exact .inl ⟨[], jobs, rfl, .nil jobs, by simp⟩
    · rintro (⟨_, jobs', rfl, performs, rfl⟩ | ⟨fate, rfl, ran, _, _, _, _, _, in_order, -⟩)
      · cases performs
        simp
      · simp at in_order
  | cons statement statements ih =>
    rw [runs_runStatements_cons_iff]
    constructor
    · rintro (⟨result, jobs', running, telling, rest, rfl, run, told, run'⟩ | ⟨fate, rfl, breaks⟩)
      · rw [Progress.after_eq] at run'
        cases fails : result.fails with
        | true =>
          simp only [fails, if_true, pure_eq, runs_done_iff] at run'
          obtain ⟨rfl, rfl⟩ := run'
          exact .inl ⟨[(statement, result)], jobs',
            upToFailure_cons_iff.2 ⟨result, [], rfl, by simp [fails]⟩, .cons run told (.nil _),
            by simp [statusAfter_cons, fails]⟩
        | false =>
          simp only [fails, Bool.false_eq_true, if_false, ih] at run'
          rcases run' with ⟨ran, jobs'', upTo, performs, rfl⟩ | ⟨fate, rfl, breaks⟩
          · refine .inl ⟨(statement, result) :: ran, jobs'', ?_, .cons run told performs, ?_⟩
            · exact upToFailure_cons_iff.2 ⟨result, ran, rfl, by simpa [fails] using upTo⟩
            · rw [statusAfter_cons]
              simp [fails]
          · exact .inr ⟨fate, rfl, breaks.cons run told fails⟩
      · exact .inr ⟨fate, rfl, @BreaksOff.intro _ _ _ _ _ _ [] _ _ _ nofun (.nil _) breaks⟩
    · rintro (⟨_, jobs', upTo, performs, rfl⟩ | ⟨fate, rfl, breaks⟩)
      · obtain ⟨result, others, rfl, later⟩ := upToFailure_cons_iff.1 upTo
        cases performs with
        | @cons _ jobs'' _ _ _ _ running telling rest run told performs =>
          refine .inl ⟨result, jobs'', running, telling, rest, rfl, run, told, ?_⟩
          rw [Progress.after_eq]
          cases fails : result.fails with
          | true =>
            obtain rfl : others = [] := by simpa [fails] using later
            cases performs
            simp [fails, statusAfter_cons, runs_done_iff]
          | false =>
            simp only [Bool.false_eq_true, if_false, ih]
            refine .inl ⟨others, jobs', by simpa [fails] using later, performs, ?_⟩
            rw [statusAfter_cons]
            simp [fails]
      · rcases breaks.cases_cons with breaks |
          ⟨result, jobs', running, telling, rest, rfl, run, told, passes, later⟩
        · exact .inr ⟨fate, rfl, breaks⟩
        · refine .inl ⟨result, jobs', running, telling, rest, rfl, run, told, ?_⟩
          rw [Progress.after_eq]
          simp only [passes, Bool.false_eq_true, if_false, ih]
          exact .inr ⟨fate, rfl, later⟩

theorem contained_runStatements (settings : Settings) (flags : Flags) (progress : Progress)
    (statements : List Statement) : (runStatements settings flags progress statements).Contained := by
  induction statements generalizing progress with
  | nil => trivial
  | cons statement rest ih =>
    refine (statement.contained_run ..).bind fun result =>
      (contained_record ..).bind fun _ => ?_
    dsimp only
    split
    · trivial
    · exact ih _

theorem contained_run (line : Line) (settings : Settings) (jobs : JobTable) :
    (line.run settings jobs).Contained := by
  unfold run
  split
  · trivial
  · exact (contained_runStatements ..).bind fun _ => trivial

theorem runs_run_iff {line : Line} {settings : Settings} {jobs : JobTable} {events : List Event}
    {outcome : Outcome (Nat × Line × JobTable)} (clear : line.flags.error = false) :
    Runs (line.run settings jobs) events outcome ↔
      (∃ ran jobs', UpToFailure line.statements ran ∧
        Performs settings line.flags jobs ran events jobs' ∧
        outcome = .value (statusAfter 0 ran,
          ⟨line.statements, { line.flags with error := ran.any (·.2.fails) }⟩, jobs')) ∨
      ∃ fate, outcome = .ended fate ∧
        BreaksOff settings line.flags jobs line.statements events fate := by
  have marked (ran : List Ran) : (if ran.any (·.2.fails) then line.markError else line) =
      ⟨line.statements, { line.flags with error := ran.any (·.2.fails) }⟩ := by
    cases ran.any (·.2.fails) with
    | true => rfl
    | false => rw [if_neg Bool.false_ne_true, ← clear]
  unfold run
  simp only [clear, Bool.false_eq_true, if_false]
  rw [Runs.bind_iff (contained_runStatements ..)]
  simp only [runs_runStatements_iff, pure_eq, runs_done_iff]
  constructor
  · rintro (⟨events, _, _, rfl, ⟨ran, jobs', upTo, performs, same⟩ | ⟨_, ⟨⟩, -⟩, rfl, rfl⟩ |
      ⟨fate, rfl, ⟨_, _, -, -, ⟨⟩⟩ | ⟨_, ⟨⟩, breaks⟩⟩)
    · cases same
      rw [List.append_nil, marked]
      exact .inl ⟨ran, jobs', upTo, performs, rfl⟩
    · exact .inr ⟨fate, rfl, breaks⟩
  · rintro (⟨ran, jobs', upTo, performs, rfl⟩ | ⟨fate, rfl, breaks⟩)
    · exact .inl ⟨events, [], _, by simp, .inl ⟨ran, jobs', upTo, performs, rfl⟩, rfl,
        by rw [marked]⟩
    · exact .inr ⟨fate, rfl, .inr ⟨fate, rfl, breaks⟩⟩

/-- A line that has failed before is not run. Any other line runs its statements one after the
other, up to the first that fails, whatever comes of each; the flag, the jobs and the status are
about those that have run. The process gives up in between only if a message about one of them
cannot be written, or if there is no number left for its job. -/
theorem short_circuit (line : Line) (settings : Settings) (jobs : JobTable) (events : List Event)
    (outcome : Outcome (Nat × Line × JobTable)) :
    Runs (line.run settings jobs) events outcome ↔
      if line.flags.error then events = [] ∧ outcome = .value (1, line, jobs)
      else
        (∃ ran jobs', UpToFailure line.statements ran ∧
          Performs settings line.flags jobs ran events jobs' ∧
          jobs.Gains (startedJobs ran) jobs' ∧
          outcome = .value (statusAfter 0 ran,
            ⟨line.statements, { line.flags with error := ran.any (·.2.fails) }⟩, jobs')) ∨
        ∃ fate, outcome = .ended fate ∧
          BreaksOff settings line.flags jobs line.statements events fate := by
  cases failed : line.flags.error with
  | true =>
    unfold run
    simp only [failed, if_true, pure_eq, runs_done_iff, failedStatus]
  | false =>
    simp only [Bool.false_eq_true, if_false, runs_run_iff failed]
    refine or_congr_left ⟨?_, ?_⟩
    · rintro ⟨ran, jobs', upTo, performs, rfl⟩
      exact ⟨ran, jobs', upTo, performs, performs.gains, rfl⟩
    · rintro ⟨ran, jobs', upTo, performs, -, rfl⟩
      exact ⟨ran, jobs', upTo, performs, rfl⟩

end Line

end PipelineShell
