import PipelineShell.Proofs.Pipeline.Calls
import PipelineShell.Proofs.Pipeline.Composition

namespace PipelineShell

open PipelineShell.Action

variable {β : Type} {events : List Event} {input : Descriptor} {flags : Flags}
  {scheduling : Scheduling} {carried : Option Descriptor} {stage : Stage} {stages : List Stage}

/-! ## A start without its wait -/

structure RunningStage where
  plan : ExecPlan
  child : Int
  readEnd : Descriptor

def launch (stage : Stage) (source : Descriptor) : Action (Except RunError RunningStage) := do
  match ExecPlan.ofStage stage with
  | .error error => return .error error
  | .ok plan =>
    match ← perform .pipe with
    | .error errno => return .error (.system errno)
    | .ok (readEnd, writeEnd) =>
      match ← spawn plan source writeEnd with
      | .error error =>
        closeAll [writeEnd, readEnd]
        return .error error
      | .ok child =>
        closeAll [writeEnd]
        return .ok ⟨plan, child, readEnd⟩

/-- What is left of the start of a stage that runs. -/
def settle (started : RunningStage) : Scheduling → Action (Except RunError Descriptor)
  | .concurrent => return .ok started.readEnd
  | .sequential => do
    match ← awaitStage started.plan started.child with
    | .ok () => return .ok started.readEnd
    | .error error =>
      closeAll [started.readEnd]
      return .error error

theorem startStage_eq (stage : Stage) (source : Descriptor) (scheduling : Scheduling) :
    startStage stage source scheduling = launch stage source >>= fun launched =>
      match launched with
      | .ok started => settle started scheduling
      | .error error => pure (.error error) := by
  unfold startStage launch
  cases ExecPlan.ofStage stage with
  | error error => rfl
  | ok plan =>
    simp only [Action.bind_assoc]
    congr 1
    funext reply
    rcases reply with errno | ⟨readEnd, writeEnd⟩
    · rfl
    simp only [Action.bind_assoc]
    congr 1
    funext spawned
    cases spawned with
    | error error => simp [Action.bind_assoc]
    | ok child =>
      cases scheduling with
      | concurrent => simp [Action.bind_assoc, settle]
      | sequential =>
        simp only [Action.bind_assoc, settle]
        rfl

@[simp] theorem steady_launch (stage : Stage) (source : Descriptor) :
    (launch stage source).Steady := by
  unfold launch
  cases ExecPlan.ofStage stage with
  | error error => trivial
  | ok plan =>
    refine steady_perform_bind rfl fun reply => ?_
    rcases reply with errno | ⟨readEnd, writeEnd⟩
    · trivial
    refine (steady_spawn ..).bind fun spawned => ?_
    cases spawned with
    | error error => exact (steady_closeAll _).bind fun _ => trivial
    | ok child => exact (steady_closeAll _).bind fun _ => trivial

theorem launch_started {source : Descriptor} {started : RunningStage}
    (run : Runs (launch stage source) events (.value (.ok started))) :
    ExecPlan.ofStage stage = .ok started.plan ∧ ∃ writeEnd spawning closing,
      events = .answered .pipe (.ok (started.readEnd, writeEnd)) :: (spawning ++ closing) ∧
      Runs (spawn started.plan source writeEnd) spawning (.value (.ok started.child)) ∧
      Only (IsClose [writeEnd]) closing := by
  unfold launch at run
  cases planned : ExecPlan.ofStage stage with
  | error error =>
    rw [planned] at run
    exact nomatch (runs_done_iff.1 run).2
  | ok plan =>
    rw [planned] at run
    rcases (runs_perform_bind_iff rfl).1 run with ⟨-, ⟨⟩⟩ | ⟨reply, rest, rfl, goes_on⟩
    rcases reply with errno | ⟨readEnd, writeEnd⟩
    · exact nomatch (runs_done_iff.1 goes_on).2
    obtain ⟨spawning, _, spawned, rfl, spawns, closes⟩ :=
      (Runs.bind_value_iff (steady_spawn ..).contained).1 goes_on
    cases spawned with
    | error error =>
      obtain ⟨_, _, rfl, -, returns⟩ := runs_closeAll_bind closes nofun
      exact nomatch (runs_done_iff.1 returns).2
    | ok child =>
      obtain ⟨closing, _, rfl, only, returns⟩ := runs_closeAll_bind closes nofun
      obtain ⟨rfl, ⟨⟩⟩ := runs_done_iff.1 returns
      exact ⟨rfl, writeEnd, spawning, closing, by rw [List.append_nil], spawns, only⟩

theorem awaitStage_eq (plan : ExecPlan) (child : Int) :
    awaitStage plan child = perform (.wait child .block) >>= fun answer =>
      pure (awaited plan answer) := by
  unfold awaitStage
  congr 1
  funext answer
  rcases answer with errno | report
  · rfl
  · dsimp only [awaited, pure_eq]
    cases WaitStatus.ofReport report with
    | error errno => rfl
    | ok status => cases status <;> rfl

namespace Pipeline

def goOn (input : Descriptor) (flags : Flags) (scheduling : Scheduling)
    (carried : Option Descriptor) (stages : List Stage) (readEnd : Descriptor) :
    Action (Except (PipelineFailure × Flags) (Option Descriptor)) := do
  closeAll carried.toList
  startEarlier input flags scheduling (some readEnd) stages

def abandon (flags : Flags) (carried : Option Descriptor) (error : RunError) :
    Action (Except (PipelineFailure × Flags) (Option Descriptor)) := do
  announceNotFound false
  closeAll carried.toList
  return .error (.earlier error, { flags with error := true })

def judge (input : Descriptor) (flags : Flags) (carried : Option Descriptor)
    (stages : List Stage) (readEnd : Descriptor) :
    Except RunError Unit → Action (Except (PipelineFailure × Flags) (Option Descriptor))
  | .ok () => goOn input flags .sequential carried stages readEnd
  | .error error => do
    closeAll [readEnd]
    abandon flags carried error

theorem startEarlier_concurrent (clear : flags.error = false) :
    startEarlier input flags .concurrent carried (stage :: stages) =
      launch stage (carried.getD input) >>= fun launched =>
        match launched with
        | .ok started => goOn input flags .concurrent carried stages started.readEnd
        | .error error => abandon flags carried error := by
  simp only [startEarlier, clear, Bool.false_eq_true, if_false, startStage_eq, Action.bind_assoc]
  congr 1
  funext launched
  cases launched <;> rfl

theorem startEarlier_sequential (clear : flags.error = false) :
    startEarlier input flags .sequential carried (stage :: stages) =
      launch stage (carried.getD input) >>= fun launched =>
        match launched with
        | .ok started => perform (.wait started.child .block) >>= fun answer =>
          judge input flags carried stages started.readEnd (awaited started.plan answer)
        | .error error => abandon flags carried error := by
  simp only [startEarlier, clear, Bool.false_eq_true, if_false, startStage_eq, Action.bind_assoc]
  congr 1
  funext launched
  cases launched with
  | error error => rfl
  | ok started =>
    simp only [settle, awaitStage_eq, Action.bind_assoc]
    congr 1
    funext answer
    simp only [pure_eq, done_bind]
    cases awaited started.plan answer with
    | ok value => rfl
    | error error => simp [Action.bind_assoc, judge, abandon]

theorem startEarlier_append (first second : List Stage) :
    startEarlier input flags scheduling carried (first ++ second) =
      startEarlier input flags scheduling carried first >>= fun started =>
        match started with
        | .ok source => startEarlier input flags scheduling source second
        | .error failure => pure (.error failure) := by
  induction first generalizing carried with
  | nil => rfl
  | cons stage first ih =>
    simp only [List.cons_append, startEarlier]
    split
    · simp [Action.bind_assoc]
    · simp only [Action.bind_assoc]
      congr 1
      funext started
      cases started with
      | ok readEnd => simp [Action.bind_assoc, ih]
      | error error => simp [Action.bind_assoc]

theorem runs_abandon_bind {f : Except (PipelineFailure × Flags) (Option Descriptor) → Action β}
    {outcome : Outcome β} {error : RunError}
    (run : Runs (abandon flags carried error >>= f) events outcome)
    (complete : outcome ≠ .ended .pending) :
    ∃ reply closing rest,
      events = .answered (.write standardOutput commandNotFound.toUTF8) reply ::
        (closing ++ rest) ∧
      Only (IsClose carried.toList) closing ∧
      Runs (f (.error (.earlier error, { flags with error := true }))) rest outcome := by
  rw [abandon, Action.bind_assoc] at run
  obtain ⟨reply, _, rfl, closes⟩ := runs_announce_immortal_bind run complete
  rw [Action.bind_assoc] at closes
  obtain ⟨closing, rest, rfl, only, returns⟩ := runs_closeAll_bind closes complete
  exact ⟨reply, closing, rest, rfl, only, returns⟩

/-! ## The runs of the two -/

/-- The second list has the events of the first and, behind the start of each stage that runs, a
wait for its end. The waits are answered in turn as the list says, and none brings bad news. -/
inductive Spaced (input : Descriptor) :
    Option Descriptor → List Stage → List (Except Errno ChildReport) → List Event → List Event →
      Prop
  | launched (carried : Option Descriptor) (answers : List (Except Errno ChildReport))
    (events : List Event) : Spaced input carried [] answers events events
  | unfinished {carried : Option Descriptor} {stage : Stage} {stages : List Stage}
    {answers : List (Except Errno ChildReport)} {starting : List Event} {fate : Fate}
    (starts : Runs (launch stage (carried.getD input)) starting (.ended fate)) :
    Spaced input carried (stage :: stages) answers starting starting
  | failed {carried : Option Descriptor} {stage : Stage} {stages : List Stage}
    {answers : List (Except Errno ChildReport)} {starting : List Event} {error : RunError}
    (starts : Runs (launch stage (carried.getD input)) starting (.value (.error error)))
    (rest : List Event) :
    Spaced input carried (stage :: stages) answers (starting ++ rest) (starting ++ rest)
  | started {carried : Option Descriptor} {stage : Stage} {stages : List Stage}
    {answer : Except Errno ChildReport} {answers : List (Except Errno ChildReport)}
    {starting closing concurrent sequential : List Event} {started : RunningStage}
    (starts : Runs (launch stage (carried.getD input)) starting (.value (.ok started)))
    (passes : awaited started.plan answer = .ok ())
    (only : Only (IsClose carried.toList) closing)
    (others : Spaced input (some started.readEnd) stages answers concurrent sequential) :
    Spaced input carried (stage :: stages) (answer :: answers)
      (starting ++ (closing ++ concurrent))
      (starting ++ .answered (.wait started.child .block) answer :: (closing ++ sequential))

theorem spaced_nil (input : Descriptor) (carried : Option Descriptor) (stages : List Stage)
    (answers : List (Except Errno ChildReport)) : Spaced input carried stages answers [] [] := by
  cases stages with
  | nil => exact .launched ..
  | cons stage stages =>
    obtain ⟨outcome, starts⟩ := exists_runs_nil (launch stage (carried.getD input))
    rcases outcome with ⟨error | started⟩ | fate
    · exact .failed starts []
    · obtain ⟨-, _, _, _, ⟨⟩, -⟩ := launch_started starts
    · exact .unfinished starts

section

variable {f : Except (PipelineFailure × Flags) (Option Descriptor) → Action β}
  {outcome : Outcome β}

theorem runs_goOn_iff {readEnd : Descriptor} :
    Runs (goOn input flags scheduling carried stages readEnd >>= f) events outcome ↔
      (∃ closing others, events = closing ++ others ∧
        Runs (closeAll carried.toList) closing (.value ()) ∧
        Runs (startEarlier input flags scheduling (some readEnd) stages >>= f) others outcome) ∨
      ∃ fate, outcome = .ended fate ∧ Runs (closeAll carried.toList) events (.ended fate) := by
  rw [goOn, Action.bind_assoc, Runs.bind_iff (steady_closeAll _).contained]
  constructor
  · rintro (⟨closing, others, _, same, closes, later⟩ | ended)
    · exact .inl ⟨closing, others, same, closes, later⟩
    · exact .inr ended
  · rintro (⟨closing, others, same, closes, later⟩ | ended)
    · exact .inl ⟨closing, others, (), same, closes, later⟩
    · exact .inr ended

theorem exists_spaced (clear : flags.error = false)
    (run : Runs (startEarlier input flags .concurrent carried stages >>= f) events outcome)
    {codes : List Nat} (enough : codes.length = stages.length) :
    ∃ spaced,
      Spaced input carried stages (codes.map fun code => .ok (.exited code)) events spaced ∧
        Runs (startEarlier input flags .sequential carried stages >>= f) spaced outcome := by
  induction stages generalizing carried events codes with
  | nil => exact ⟨events, .launched .., run⟩
  | cons stage stages ih =>
    obtain ⟨code, codes, rfl⟩ := List.exists_cons_of_length_eq_add_one enough
    have enough : codes.length = stages.length := Nat.succ.inj enough
    rw [startEarlier_concurrent clear, Action.bind_assoc] at run
    rw [startEarlier_sequential clear, Action.bind_assoc]
    have contained := (steady_launch stage (carried.getD input)).contained
    rcases (Runs.bind_iff contained).1 run with
      ⟨starting, rest, error | started, rfl, starts, goes_on⟩ | ⟨fate, rfl, starts⟩
    · exact ⟨_, .failed starts rest, starts.bind contained goes_on⟩
    · have passes : awaited started.plan (.ok (.exited code)) = .ok () := rfl
      -- The wait that is put in is answered with the next code.
      have waits : ∀ {more},
          Runs (goOn input flags .sequential carried stages started.readEnd >>= f) more outcome →
          Runs (perform (.wait started.child .block) >>= fun answer =>
            judge input flags carried stages started.readEnd (awaited started.plan answer) >>= f)
              (.answered (.wait started.child .block) (.ok (.exited code)) :: more) outcome :=
        fun later => (runs_perform_bind_iff rfl).2 (.inr ⟨_, _, rfl, later⟩)
      rcases runs_goOn_iff.1 goes_on with
        ⟨closing, others, rfl, closes, later⟩ | ⟨fate, rfl, closes⟩
      · obtain ⟨spaced, relates, run'⟩ := ih later enough
        exact ⟨_, .started starts passes (closes.only (calls_closeAll _)) relates,
          starts.bind contained (waits (runs_goOn_iff.2 (.inl ⟨_, _, rfl, closes, run'⟩)))⟩
      · have relates := Spaced.started starts passes (closes.only (calls_closeAll _))
          (spaced_nil input (some started.readEnd) stages
            (codes.map fun code => .ok (.exited code)))
        rw [List.append_nil] at relates
        exact ⟨_, relates,
          starts.bind contained (waits (runs_goOn_iff.2 (.inr ⟨fate, rfl, closes⟩)))⟩
    · exact ⟨events, .unfinished starts, starts.bind_ended _ contained⟩

/-- Under sequential scheduling, this stage has become its program behind these, and none of those
has brought bad news. Its end has not been waited for. -/
inductive Reaches (input : Descriptor) (flags : Flags) (carried : Option Descriptor)
    (first : List Stage) (stage : Stage) : List Event → Option Descriptor → RunningStage → Prop
  | intro {before starting : List Event} {source : Option Descriptor} {started : RunningStage}
    (clear : flags.error = false)
    (launches : Runs (startEarlier input flags .sequential carried first) before
      (.value (.ok source)))
    (starts : Runs (launch stage (source.getD input)) starting (.value (.ok started))) :
    Reaches input flags carried first stage (before ++ starting) source started

inductive EndsWaiting (started : RunningStage) (before : List Event) : List Event → Outcome β → Prop
  | unanswered : EndsWaiting started before before (.ended .pending)
  | refused {answer : Except Errno ChildReport} {error : RunError}
    (fails : awaited started.plan answer = .error error) (rest : List Event)
    (outcome : Outcome β) :
    EndsWaiting started before (before ++ .answered (.wait started.child .block) answer :: rest)
      outcome

theorem runs_startEarlier_cons (clear : flags.error = false)
    {starting closing rest : List Event} {started : RunningStage}
    {answer : Except Errno ChildReport}
    {result : Except (PipelineFailure × Flags) (Option Descriptor)}
    (starts : Runs (launch stage (carried.getD input)) starting (.value (.ok started)))
    (passes : awaited started.plan answer = .ok ())
    (closes : Runs (closeAll carried.toList) closing (.value ()))
    (run : Runs (startEarlier input flags .sequential (some started.readEnd) stages) rest
      (.value result)) :
    Runs (startEarlier input flags .sequential carried (stage :: stages))
      (starting ++ .answered (.wait started.child .block) answer :: (closing ++ rest))
      (.value result) := by
  rw [startEarlier_sequential clear]
  refine starts.bind (steady_launch ..).contained ((runs_perform_bind_iff rfl).2 (.inr ?_))
  refine ⟨answer, closing ++ rest, rfl, ?_⟩
  rw [passes]
  exact closes.bind (steady_closeAll _).contained run

theorem Reaches.cons {starting closing before : List Event} {started last : RunningStage}
    {answer : Except Errno ChildReport} {source : Option Descriptor} {first : List Stage}
    {target : Stage}
    (reaches : Reaches input flags (some started.readEnd) first target before source last)
    (starts : Runs (launch stage (carried.getD input)) starting (.value (.ok started)))
    (passes : awaited started.plan answer = .ok ())
    (closes : Runs (closeAll carried.toList) closing (.value ())) :
    Reaches input flags carried (stage :: first) target
      (starting ++ .answered (.wait started.child .block) answer :: (closing ++ before)) source
        last := by
  obtain ⟨clear, launches, starts_last⟩ := reaches
  have whole := Reaches.intro clear (runs_startEarlier_cons clear starts passes closes launches)
    starts_last
  simpa using whole

/-- When stages are waited for, the same happens as when they are not, until a wait brings bad
news. -/
theorem sequential_cases (clear : flags.error = false)
    (run : Runs (startEarlier input flags .sequential carried stages >>= f) events outcome) :
    (∃ answers concurrent, Spaced input carried stages answers concurrent events ∧
      Runs (startEarlier input flags .concurrent carried stages >>= f) concurrent outcome) ∨
    ∃ first stage later before source started, stages = first ++ stage :: later ∧
      Reaches input flags carried first stage before source started ∧
        EndsWaiting started before events outcome := by
  induction stages generalizing carried events with
  | nil => exact .inl ⟨[], events, .launched .., run⟩
  | cons stage stages ih =>
    rw [startEarlier_sequential clear, Action.bind_assoc] at run
    rw [startEarlier_concurrent clear, Action.bind_assoc]
    have contained := (steady_launch stage (carried.getD input)).contained
    rcases (Runs.bind_iff contained).1 run with
      ⟨starting, rest, error | started, rfl, starts, goes_on⟩ | ⟨fate, rfl, starts⟩
    · exact .inl ⟨[], _, .failed starts rest, starts.bind contained goes_on⟩
    · have launches : Runs (startEarlier input flags .sequential carried []) []
          (.value (.ok carried)) := .done _
      have here : Reaches input flags carried [] stage starting carried started :=
        .intro clear launches starts
      dsimp only at goes_on
      rw [Action.bind_assoc] at goes_on
      rcases (runs_perform_bind_iff rfl).1 goes_on with ⟨rfl, rfl⟩ | ⟨answer, rest, rfl, judges⟩
      · rw [List.append_nil]
        exact .inr ⟨[], stage, stages, starting, carried, started, rfl, here, .unanswered⟩
      cases passes : awaited started.plan answer with
      | error error =>
        exact .inr ⟨[], stage, stages, starting, carried, started, rfl, here, .refused passes ..⟩
      | ok news =>
        rw [passes] at judges
        rcases runs_goOn_iff.1 judges with
          ⟨closing, others, rfl, closes, later⟩ | ⟨fate, rfl, closes⟩
        · have only := closes.only (calls_closeAll _)
          rcases ih later with ⟨answers, concurrent, relates, run'⟩ |
            ⟨first, target, others, before, source, last, rfl, reaches, ends⟩
          · exact .inl ⟨_, _, .started starts passes only relates,
              starts.bind contained (runs_goOn_iff.2 (.inl ⟨_, _, rfl, closes, run'⟩))⟩
          · refine .inr ⟨stage :: first, target, others, _, source, last, rfl,
              reaches.cons starts passes closes, ?_⟩
            cases ends with
            | unanswered => exact .unanswered
            | @refused bad error fails rest =>
              have ends : EndsWaiting last
                  (starting ++ .answered (.wait started.child .block) answer :: (closing ++ before))
                  ((starting ++ .answered (.wait started.child .block) answer ::
                    (closing ++ before)) ++ .answered (.wait last.child .block) bad :: rest)
                  outcome := .refused fails rest outcome
              simpa using ends
        · have relates := Spaced.started starts passes (closes.only (calls_closeAll _))
            (spaced_nil input (some started.readEnd) stages [])
          rw [List.append_nil] at relates
          exact .inl ⟨_, _, relates,
            starts.bind contained (runs_goOn_iff.2 (.inr ⟨fate, rfl, closes⟩))⟩
    · exact .inl ⟨[], events, .unfinished starts, starts.bind_ended _ contained⟩

theorem Reaches.goes_on {before rest : List Event} {first : List Stage}
    {source : Option Descriptor} {started : RunningStage}
    (reaches : Reaches input flags carried first stage before source started)
    (later : List Stage) :
    Runs (startEarlier input flags .sequential carried (first ++ stage :: later) >>= f)
        (before ++ rest) outcome ↔
      Runs (perform (.wait started.child .block) >>= fun answer =>
        judge input flags source later started.readEnd (awaited started.plan answer) >>= f) rest
          outcome := by
  obtain ⟨clear, launches, starts⟩ := reaches
  rw [startEarlier_append, Action.bind_assoc, List.append_assoc]
  have from_launch : ∀ {events}, Runs (startEarlier input flags .sequential source
      (stage :: later) >>= f) events outcome ↔
      Runs (launch stage (source.getD input) >>= fun launched => (match launched with
        | .ok started => perform (.wait started.child .block) >>= fun answer =>
          judge input flags source later started.readEnd (awaited started.plan answer)
        | .error error => abandon flags source error) >>= f) events outcome := by
    intro events
    rw [startEarlier_sequential clear, Action.bind_assoc]
  constructor
  · intro run
    have run := from_launch.1 (launches.after_first run)
    exact starts.after_first run
  · intro run
    refine launches.bind (steady_startEarlier ..).contained (from_launch.2 ?_)
    exact starts.bind (steady_launch ..).contained run

theorem Reaches.stops {before rest : List Event} {first later : List Stage}
    {source : Option Descriptor} {started : RunningStage} {answer : Except Errno ChildReport}
    {error : RunError}
    (reaches : Reaches input flags carried first stage before source started)
    (fails : awaited started.plan answer = .error error)
    (run : Runs (startEarlier input flags .sequential carried (first ++ stage :: later) >>= f)
      (before ++ .answered (.wait started.child .block) answer :: rest) outcome)
    (complete : outcome ≠ .ended .pending) :
    ∃ untying reply closing after, rest = untying ++
        (.answered (.write standardOutput commandNotFound.toUTF8) reply :: (closing ++ after)) ∧
      Only (IsClose [started.readEnd]) untying ∧ Only (IsClose source.toList) closing ∧
      Runs (f (.error (.earlier error, { flags with error := true }))) after outcome := by
  rcases (runs_perform_bind_iff rfl).1 ((reaches.goes_on later).1 run) with
    ⟨⟨⟩, -⟩ | ⟨_, _, same, judges⟩
  cases same
  rw [fails, judge, Action.bind_assoc] at judges
  obtain ⟨untying, _, rfl, only, abandons⟩ := runs_closeAll_bind judges complete
  obtain ⟨reply, closing, after, rfl, only', returns⟩ := runs_abandon_bind abandons complete
  exact ⟨untying, reply, closing, after, rfl, only, only', returns⟩

theorem Reaches.exists_concurrent {before : List Event} {first : List Stage}
    {source : Option Descriptor} {started : RunningStage}
    (reaches : Reaches input flags carried first stage before source started)
    (later : List Stage) :
    ∃ answers concurrent, ∃ outcome : Outcome β,
      Spaced input carried first answers concurrent before ∧
        Runs (startEarlier input flags .concurrent carried (first ++ stage :: later) >>= f)
          concurrent outcome := by
  obtain @⟨before, starting, _, _, clear, launches, starts⟩ := reaches
  -- The start of the stage as what follows the stages in front of it.
  let begins : Except (PipelineFailure × Flags) (Option Descriptor) →
      Action (Except RunError RunningStage)
    | .ok source => launch stage (source.getD input)
    | .error _ => exhausted
  have whole : Runs (startEarlier input flags .sequential carried first >>= begins)
      (before ++ starting) (.value (.ok started)) :=
    launches.bind (steady_startEarlier ..).contained starts
  generalize before ++ starting = events at whole ⊢
  rcases sequential_cases clear whole with ⟨answers, concurrent, relates, run⟩ |
    ⟨_, _, others, _, _, _, rfl, reaches, ends⟩
  · obtain ⟨firsts, lasts, result, rfl, launches, starts⟩ :=
      (Runs.bind_value_iff (steady_startEarlier ..).contained).1 run
    rcases result with _ | source
    · cases starts
    obtain ⟨outcome, goes_on⟩ := exists_runs_nil
      (goOn input flags .concurrent source later started.readEnd >>= f)
    refine ⟨answers, firsts ++ lasts, outcome, relates, ?_⟩
    rw [startEarlier_append, Action.bind_assoc]
    refine launches.bind (steady_startEarlier ..).contained ?_
    have run : Runs (launch stage (source.getD input) >>= fun launched => (match launched with
        | .ok started => goOn input flags .concurrent source later started.readEnd
        | .error error => abandon flags source error) >>= f) (lasts ++ []) outcome :=
      starts.bind (steady_launch ..).contained goes_on
    dsimp only
    rw [startEarlier_concurrent clear, Action.bind_assoc]
    simpa using run
  · cases ends with
    | refused fails rest =>
      obtain ⟨_, _, _, _, _, _, _, ends⟩ := reaches.stops fails whole nofun
      cases ends

end

/-! ## Messages -/

theorem announcements_message (reply : Except Errno Nat) (rest : List Event) :
    announcements (.answered (.write standardOutput commandNotFound.toUTF8) reply :: rest) =
      standardOutput :: announcements rest := by
  simp [announcements]

theorem announcements_of_staging {α : Type} {action : Action α} {outcome : Outcome α}
    (run : Runs action events outcome) (staging : action.Throughout IsStaging) :
    announcements events = [] := by
  refine announcements_of_short ?_
  rintro ⟨descriptor, data⟩ member
  obtain ⟨event, member, written⟩ := List.mem_filterMap.1 member
  cases event with
  | forked => cases written
  | answered request reply =>
    have staged := run.throughout staging request reply member
    cases staged with
    | report _ short =>
      cases written
      exact short
    | _ => cases written

theorem announcements_of_launches {source : Option Descriptor}
    (run : Runs (startEarlier input flags scheduling carried stages) events
      (.value (.ok source))) : announcements events = [] := by
  induction stages generalizing carried events with
  | nil =>
    obtain ⟨rfl, -⟩ := runs_done_iff.1 run
    rfl
  | cons stage stages ih =>
    obtain ⟨starting, closing, others, readEnd, rfl, starts, only, run⟩ := startEarlier_cons run
    simp [announcements_of_staging starts (throughout_startStage ..),
      announcements_of_closes only, ih run]

theorem announcements_of_launch {source : Descriptor} {started : RunningStage}
    (run : Runs (launch stage source) events (.value (.ok started))) :
    announcements events = [] := by
  have starts : Runs (startStage stage source .concurrent) (events ++ [])
      (.value (.ok started.readEnd)) := by
    rw [startStage_eq]
    exact run.bind (steady_launch ..).contained (.done _)
  rw [← List.append_nil events]
  exact announcements_of_staging starts (throughout_startStage ..)

theorem Reaches.announcements_eq {before : List Event} {first : List Stage}
    {source : Option Descriptor} {started : RunningStage}
    (reaches : Reaches input flags carried first stage before source started) :
    announcements before = [] := by
  obtain ⟨clear, launches, starts⟩ := reaches
  rw [announcements_append, announcements_of_launches launches, announcements_of_launch starts,
    List.append_nil]

/-! ## The whole pipeline -/

theorem spaced_self {pipeline : Pipeline} {output : Descriptor}
    {outcome : Outcome (PipelineFailure × Flags)} (failed : flags.error = true)
    (run : Runs (pipeline.run input output flags scheduling) events outcome)
    (answers : List (Except Errno ChildReport)) (other : Scheduling) :
    Spaced input none pipeline.earlier answers events events ∧
      Runs (pipeline.run input output flags other) events outcome := by
  unfold Pipeline.run at run ⊢
  cases several : pipeline.earlier with
  | nil =>
    rw [several] at run
    exact ⟨.launched .., run⟩
  | cons stage rest =>
    rw [several, startEarlier, failed] at run
    obtain ⟨rfl, rfl⟩ := runs_done_iff.1 run
    rw [startEarlier, failed]
    exact ⟨spaced_nil .., .done _⟩

def IsParting (request : Call) : Prop :=
  (∃ descriptor, request = .close descriptor) ∨
    request = .write standardOutput commandNotFound.toUTF8

theorem IsParting.of_closes {descriptors : List Descriptor}
    (only : Only (IsClose descriptors) events) : Only IsParting events :=
  only.mono fun _ ⟨descriptor, _, same⟩ => .inl ⟨descriptor, same⟩

end Pipeline

theorem awaited_killed (plan : ExecPlan) {number : Nat} (named : 1 ≤ number ∧ number ≤ 31) :
    awaited plan (.ok (.killed number)) = .error (.killed plan.program ⟨number⟩) := by
  simp [awaited, WaitStatus.ofReport_killed, named]

theorem Action.exists_closeAll (descriptors : List Descriptor) :
    ∃ closing, Runs (closeAll descriptors) closing (.value ()) := by
  induction descriptors with
  | nil => exact ⟨[], .done ()⟩
  | cons descriptor rest ih =>
    obtain ⟨closing, closes⟩ := ih
    exact ⟨_, (runs_call_iff rfl).2 (.inr ⟨.ok (), closing, rfl, closes⟩)⟩

namespace Pipeline

section

variable {pipeline : Pipeline} {first later : List Stage} {before : List Event}
  {source : Option Descriptor} {started : RunningStage} {output : Descriptor} {number : Nat}

theorem Reaches.program_eq
    (reaches : Reaches input flags none first stage before source started) :
    stage.program? = some started.plan.program := by
  obtain ⟨-, -, starts⟩ := reaches
  exact (ExecPlan.ofStage_ok (launch_started starts).1).program_eq

theorem Reaches.exists_killed (reaches : Reaches input flags none first stage before source started)
    (split : pipeline.earlier = first ++ stage :: later) (named : 1 ≤ number ∧ number ≤ 31) :
    ∃ rest, Runs (pipeline.run input output flags .sequential)
      (before ++ .answered (.wait started.child .block) (.ok (.killed number)) :: rest)
      (.value
        (.earlier (.killed started.plan.program ⟨number⟩), { flags with error := true })) := by
  obtain ⟨closing, closes⟩ := exists_closeAll source.toList
  have closes_contained := (steady_closeAll source.toList).contained
  refine ⟨.answered (.close started.readEnd) (.ok ()) ::
    .answered (.write standardOutput commandNotFound.toUTF8) (.ok 26) :: (closing ++ []), ?_⟩
  unfold Pipeline.run
  rw [split]
  refine (reaches.goes_on later).2 ((runs_perform_bind_iff rfl).2 (.inr ⟨_, _, rfl, ?_⟩))
  rw [awaited_killed started.plan named]
  refine (runs_call_iff rfl).2 (.inr ⟨.ok (), _, rfl, ?_⟩)
  refine (runs_call_iff rfl).2 (.inr ⟨.ok 26, _, rfl, ?_⟩)
  show Runs ((closeAll source.toList >>= fun _ => _) >>= _) _ _
  rw [Action.bind_assoc]
  exact closes.bind closes_contained (.done _)

theorem Reaches.of_killed (reaches : Reaches input flags none first stage before source started)
    (split : pipeline.earlier = first ++ stage :: later) (named : 1 ≤ number ∧ number ≤ 31)
    {rest : List Event} {outcome : Outcome (PipelineFailure × Flags)}
    (run : Runs (pipeline.run input output flags .sequential)
      (before ++ .answered (.wait started.child .block) (.ok (.killed number)) :: rest) outcome)
    (complete : outcome ≠ .ended .pending) :
    outcome = .value
        (.earlier (.killed started.plan.program ⟨number⟩), { flags with error := true }) ∧
      Only IsParting rest ∧ announcements
        (before ++ .answered (.wait started.child .block) (.ok (.killed number)) :: rest) =
          [standardOutput] := by
  unfold Pipeline.run at run
  rw [split] at run
  obtain ⟨untying, reply, closing, after, rfl, only, only', returns⟩ :=
    reaches.stops (awaited_killed started.plan named) run complete
  obtain ⟨rfl, rfl⟩ := runs_done_iff.1 returns
  refine ⟨rfl, ?_, ?_⟩
  · simp [IsParting.of_closes only, IsParting.of_closes only']
    exact .inr rfl
  · have waits : ∀ rest, announcements
        (.answered (.wait started.child .block) (.ok (.killed number)) :: rest) =
          announcements rest := fun _ => rfl
    simp [reaches.announcements_eq, waits, announcements_message, announcements_of_closes only,
      announcements_of_closes only']

end

/-- Whatever a pipeline does whose stages are not waited for, it does when they are, with the waits
in between, if these are answered that the stages exited. Whatever it does when they are waited for,
it does without the waits when they are not, up to the first wait that is not answered or brings bad
news. The news that a stage was killed ends the pipeline with the error and the message. -/
theorem sequential_refines (pipeline : Pipeline) (input output : Descriptor) (flags : Flags) :
    (∀ events outcome, Runs (pipeline.run input output flags .concurrent) events outcome →
      ∀ codes : List Nat, codes.length = pipeline.earlier.length →
        ∃ spaced,
          Spaced input none pipeline.earlier (codes.map fun code => .ok (.exited code)) events
            spaced ∧
          Runs (pipeline.run input output flags .sequential) spaced outcome) ∧
    (∀ events outcome, Runs (pipeline.run input output flags .sequential) events outcome →
      (∃ answers concurrent, Spaced input none pipeline.earlier answers concurrent events ∧
        Runs (pipeline.run input output flags .concurrent) concurrent outcome) ∨
      ∃ first stage later before source started, pipeline.earlier = first ++ stage :: later ∧
        Reaches input flags none first stage before source started ∧
          EndsWaiting started before events outcome) ∧
    ∀ first stage later before source started, pipeline.earlier = first ++ stage :: later →
      Reaches input flags none first stage before source started →
      (∃ answers concurrent outcome, Spaced input none first answers concurrent before ∧
        Runs (pipeline.run input output flags .concurrent) concurrent outcome) ∧
      ∃ program, stage.program? = some program ∧ ∀ number, 1 ≤ number ∧ number ≤ 31 →
        let killed := before ++ [.answered (.wait started.child .block) (.ok (.killed number))]
        let result : Outcome (PipelineFailure × Flags) :=
          .value (.earlier (.killed program ⟨number⟩), { flags with error := true })
        (∃ rest, Runs (pipeline.run input output flags .sequential) (killed ++ rest) result) ∧
        ∀ rest outcome,
          Runs (pipeline.run input output flags .sequential) (killed ++ rest) outcome →
          outcome ≠ .ended .pending →
          outcome = result ∧ Only IsParting rest ∧
            announcements (killed ++ rest) = [standardOutput] := by
  have failed : ¬ flags.error = false → flags.error = true := by simp
  refine ⟨fun events outcome run codes enough => ?_, fun events outcome run => ?_, ?_⟩
  · by_cases clear : flags.error = false
    · exact exists_spaced clear run enough
    · exact ⟨events, spaced_self (failed clear) run _ .sequential⟩
  · by_cases clear : flags.error = false
    · exact sequential_cases clear run
    · exact .inl ⟨[], events, spaced_self (failed clear) run [] .concurrent⟩
  · rintro first stage later before source started split reaches
    refine ⟨?_, started.plan.program, reaches.program_eq, fun number named => ?_⟩
    · unfold Pipeline.run
      rw [split]
      exact reaches.exists_concurrent later
    · simp only [List.append_assoc, List.singleton_append]
      exact ⟨reaches.exists_killed split named, fun rest outcome => reaches.of_killed split named⟩

def startOfTwo : List Event := [
  .answered .pipe (.ok (3, 4)),
  .answered .pipe (.ok (6, 7)),
  .forked 100 firstOfTwo (.replaced "a" ["a"]),
  .answered (.close 7) (.ok ()),
  .answered (.read 6 4) (.ok .empty),
  .answered (.close 6) (.ok ()),
  .answered (.close 4) (.ok ())]

theorem sequential_refines_killed :
    ∃ rest, Runs (Pipeline.run ⟨[⟨[['a']]⟩], ⟨[['b']]⟩⟩ standardInput 5 {} .sequential)
      (startOfTwo ++ [.answered (.wait 100 .block) (.ok (.killed 9))] ++ rest)
      (.value (.earlier (.killed ['a'] ⟨9⟩), { error := true })) := by
  have starts : Runs (launch ⟨[['a']]⟩ standardInput) startOfTwo
      (.value (.ok ⟨⟨['a'], ["a"]⟩, 100, 3⟩)) := by
    refine .call _ rfl <| .call _ rfl <| .fork 100 ?_ ?_
    · exact .call _ rfl <| .call _ rfl <| .call _ rfl <| .call _ rfl <| .exec "a" ["a"] _
    · exact .call _ rfl <| .call _ rfl <| .call _ rfl <| .call _ rfl <| .done _
  have launches : Runs (startEarlier standardInput {} .sequential none []) []
      (.value (.ok none)) := .done _
  obtain ⟨-, -, reached⟩ := sequential_refines ⟨[⟨[['a']]⟩], ⟨[['b']]⟩⟩ standardInput 5 {}
  obtain ⟨-, program, program_eq, killed⟩ :=
    reached [] ⟨[['a']]⟩ [] startOfTwo none _ rfl (.intro rfl launches starts)
  cases program_eq
  exact (killed 9 (by decide)).1

end Pipeline

end PipelineShell
