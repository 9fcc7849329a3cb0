import PipelineShell.Proofs.Line.Opening
import PipelineShell.Proofs.Line.ShortCircuit
import PipelineShell.Proofs.Line.Storage
import PipelineShell.Proofs.Pipeline.Attempts
import PipelineShell.Proofs.Pipeline.Scheduling

namespace PipelineShell

open PipelineShell.Action

namespace Stage

theorem Unusable.ofStage_eq {stage : Stage} {error : RunError} (unusable : stage.Unusable error) :
    ExecPlan.ofStage stage = .error error := by
  obtain ⟨args⟩ := stage
  cases unusable with
  | empty h =>
    obtain rfl : args = [] := h
    rfl
  | @nul before after first rest h clean_before clean_first =>
    obtain rfl : args = before ++ (first ++ '\x00' :: rest) :: after := h
    obtain ⟨program, head⟩ : ∃ program,
        (before ++ (first ++ '\x00' :: rest) :: after).head? = some program :=
      ⟨_, List.head?_eq_some_head (by simp)⟩
    have none_before : before.findSome? Word.nulPosition? = none :=
      List.findSome?_eq_none_iff.2 fun arg member =>
        Word.nulPosition?_eq_none.2 (clean_before arg member)
    simp [ExecPlan.ofStage, program?, execForm, head, List.findSome?_append, none_before,
      Word.nulPosition?_append clean_first]

example : ExecPlan.ofStage ⟨[['a'], ['é', '\x00', '\x00'], ['\x00']]⟩ = .error (.nul 2) := by
  decide

theorem exists_unusable_iff {stage : Stage} :
    (∃ error, stage.Unusable error) ↔ stage.args = [] ∨ ∃ arg ∈ stage.args, '\x00' ∈ arg := by
  constructor
  · rintro ⟨_, empty | @⟨before, after, first, rest, args, -, -⟩⟩
    · exact .inl empty
    · exact .inr ⟨first ++ '\x00' :: rest, by simp [args], by simp⟩
  · intro wrong
    cases planned : ExecPlan.ofStage stage with
    | error error => exact ⟨error, ExecPlan.ofStage_error planned⟩
    | ok plan =>
      obtain ⟨program_eq, -, clean⟩ := ExecPlan.ofStage_ok planned
      rcases wrong with empty | ⟨arg, member, nul⟩
      · rw [empty] at program_eq
        cases program_eq
      · exact absurd nul (clean arg member)

end Stage

namespace Pipeline

def refuse (error : RunError) (isLast : Bool) (flags : Flags) (carried : Option Descriptor) :
    Action (PipelineFailure × Flags) := do
  announceNotFound false
  closeAll carried.toList
  return (if isLast then .final error else .earlier error, { flags with error := true })

theorem calls_refuse (error : RunError) (isLast : Bool) (flags : Flags)
    (carried : Option Descriptor) :
    (refuse error isLast flags carried).Calls fun request => request ≠ .pipe ∧ request ≠ .fork := by
  refine ((calls_announceNotFound false).mono ?_).bind fun _ => ((calls_closeAll _).mono ?_).bind
    fun _ => trivial
  · rintro _ rfl
    exact ⟨nofun, nofun⟩
  · rintro _ ⟨_, -, rfl⟩
    exact ⟨nofun, nofun⟩

variable {input output : Descriptor} {flags : Flags} {scheduling : Scheduling}

theorem run_of_refused {pipeline : Pipeline} {before after : List Stage} {stage : Stage}
    {error : RunError} (stages : pipeline.stages = before ++ stage :: after)
    (refused : ExecPlan.ofStage stage = .error error) (clear : flags.error = false) :
    pipeline.run input output flags scheduling =
      startEarlier input flags scheduling none before >>= fun started =>
        match started with
        | .error failure => done failure
        | .ok carried => refuse error after.isEmpty flags carried := by
  obtain ⟨earlier, last⟩ := pipeline
  rcases after.eq_nil_or_concat with rfl | ⟨after, other, rfl⟩
  · obtain ⟨rfl, same⟩ := List.append_inj' stages rfl
    cases same
    rw [run]
    congr 1
    funext started
    cases started with
    | error failure => rfl
    | ok carried => simp only [becomeLast, refused, Action.bind_assoc]; rfl
  · have parts : earlier ++ [last] = (before ++ stage :: after) ++ [other] := by
      simpa [Pipeline.stages] using stages
    obtain ⟨rfl, -⟩ := List.append_inj' parts rfl
    rw [run, startEarlier_append, Action.bind_assoc]
    congr 1
    funext started
    cases started with
    | error failure => rfl
    | ok carried => simp [startEarlier, startStage, refused, clear, refuse, Action.bind_assoc]

end Pipeline

namespace Redirection

theorem quiet_openFor (statement : Statement) : (openFor statement).Quiet := by
  refine (calls_openFor statement).throughout.mono ?_
  rintro _ (_ | _ | _ | _) <;> rfl

theorem quiet_close (redirection : Redirection) : redirection.close.Quiet :=
  (quiet_closeAll _).bind fun _ => quiet_closeAll _

end Redirection

theorem Console.quiet_log (console : Console) (message : String) : (console.log message).Quiet := by
  refine (console.calls_log message).throughout.mono ?_
  rintro _ ⟨_, rfl⟩
  rfl

theorem Statement.attempts_run (statement : Statement) (flags : Flags) (settings : Settings) :
    (statement.run flags settings).Attempts statement.pipeline.stages := by
  refine (Redirection.quiet_openFor _).bind_attempts (Redirection.steady_openFor _).contained
    fun opened => ?_
  cases opened with
  | error error => exact attempts_done _
  | ok redirection =>
    refine (Console.quiet_log _ _).bind_attempts (Console.contained_log ..) fun _ => ?_
    refine attempts_perform_bind rfl fun flushed => ?_
    have closes (result : StatementResult) : (redirection.close >>= fun _ => pure result).Quiet :=
      redirection.quiet_close.bind fun _ => trivial
    cases flushed with
    | error cause => exact (closes _).attempts
    | ok _ =>
      exact (statement.pipeline.attempts_runAsJob ..).bind_quiet
        (Pipeline.steady_runAsJob ..).contained closes

namespace Line

theorem quiet_record (settings : Settings) (statement : Statement) (jobs : JobTable)
    (result : StatementResult) : (record settings statement jobs result).Quiet :=
  (calls_record settings statement jobs result).throughout.mono fun _ message => by
    cases message <;> rfl

def stages (line : Line) : List Stage := line.statements.flatMap (·.pipeline.stages)

theorem attempts_runStatements (settings : Settings) (flags : Flags) (progress : Progress)
    (statements : List Statement) :
    (runStatements settings flags progress statements).Attempts
      (statements.flatMap (·.pipeline.stages)) := by
  induction statements generalizing progress with
  | nil => exact attempts_done _
  | cons statement rest ih =>
    rw [List.flatMap_cons]
    refine (statement.attempts_run ..).bind (statement.contained_run ..) fun result => ?_
    refine (quiet_record _ _ _ _).bind_attempts (contained_record ..) fun _ => ?_
    dsimp only
    split
    · exact attempts_done _
    · exact ih _

theorem attempts_run (line : Line) (settings : Settings) (jobs : JobTable) :
    (line.run settings jobs).Attempts line.stages := by
  unfold run
  split
  · exact attempts_done _
  · exact (attempts_runStatements ..).bind_quiet (contained_runStatements ..) fun _ => trivial

/-- The line can be read into and run without an access to anything that is not there, and what is
executed is what its stages say. -/
structure IsSafe (line : Line) : Prop where
  staged : ∀ statement ∈ line.stored.statements, statement.stages ≠ []
  reads : ∀ text, line.stored.parse? text = some (line.parse text).stored
  planned : ∀ stage ∈ line.stages, ∀ plan, ExecPlan.ofStage stage = .ok plan →
    plan.arguments[0]? = some plan.program.toString
  judged : ∀ stage ∈ line.stages, (stage.args = [] ∨ ∃ arg ∈ stage.args, '\x00' ∈ arg) →
    ∃ error, stage.Unusable error ∧ ExecPlan.ofStage stage = .error error
  refused : ∀ statement ∈ line.statements, ∀ before stage after error,
    statement.pipeline.stages = before ++ stage :: after → stage.Unusable error →
    ∀ input output flags scheduling, flags.error = false →
      statement.pipeline.run input output flags scheduling =
        Pipeline.startEarlier input flags scheduling none before >>= fun started =>
          match started with
          | .error failure => done failure
          | .ok carried => Pipeline.refuse error after.isEmpty flags carried
  spared : ∀ error isLast flags carried, (Pipeline.refuse error isLast flags carried).Calls
    fun request => request ≠ .pipe ∧ request ≠ .fork
  attempts : ∀ settings jobs, (line.run settings jobs).Attempts line.stages

theorem isSafe (line : Line) : line.IsSafe where
  staged := line.staged_stored
  reads := line.parse?_stored
  planned := fun stage _ plan h => by
    obtain ⟨program, -, -⟩ := (ExecPlan.ofStage_ok h).passes
    rwa [← List.head?_eq_getElem?]
  judged := fun stage _ wrong => by
    obtain ⟨error, unusable⟩ := Stage.exists_unusable_iff.2 wrong
    exact ⟨error, unusable, unusable.ofStage_eq⟩
  refused := fun statement _ before stage after error stages unusable _ _ flags _ clear =>
    Pipeline.run_of_refused stages unusable.ofStage_eq clear
  spared := Pipeline.calls_refuse
  attempts := line.attempts_run

/-- Whatever operations have built a line, with whatever texts, none of them has accessed anything
that is not there, and the line is safe to run. -/
theorem runs_safely (operations : List Operation) :
    Stored.Line.after? {} operations = some (after {} operations).stored ∧
      (after {} operations).IsSafe :=
  ⟨after?_stored {} operations, isSafe _⟩

end Line

end PipelineShell
