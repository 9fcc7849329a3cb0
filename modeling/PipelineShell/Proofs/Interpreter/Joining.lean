import PipelineShell.Proofs.Interpreter.Execution
import PipelineShell.Proofs.Line.Halves
import PipelineShell.Proofs.System.Behaviour

namespace PipelineShell

open PipelineShell.Action

/-! ## Runs with another outcome -/

def Outcome.map {α β : Type} (f : α → β) : Outcome α → Outcome β
  | value result => .value (f result)
  | ended fate => .ended fate

section Runs

variable {α β : Type} {action : Action α} {events : List Event}

theorem runs_map_iff (contained : action.Contained) (f : α → β) {outcome : Outcome β} :
    Runs (action >>= fun value => pure (f value)) events outcome ↔
      ∃ whole : Outcome α, outcome = whole.map f ∧ Runs action events whole := by
  rw [Runs.bind_iff contained]
  constructor
  · rintro (⟨first, second, value, rfl, run, returns⟩ | ⟨fate, rfl, run⟩)
    · obtain ⟨rfl, rfl⟩ := runs_done_iff.1 returns
      exact ⟨.value value, rfl, by simpa using run⟩
    · exact ⟨.ended fate, rfl, run⟩
  · rintro ⟨value | fate, rfl, run⟩
    · exact .inl ⟨events, [], value, by simp, run, .done _⟩
    · exact .inr ⟨fate, rfl, run⟩

end Runs

namespace Interpreter

open PipelineShell.Grammar

variable {interpreter : Interpreter} {text : Word}

def settled : Interpreter × Bool → Interpreter × Bool
  | (interpreter, goesOn) => ({ interpreter with line := {} }, goesOn)

def carryOut (interpreter : Interpreter) (text : Word) : Action (Interpreter × Bool) := do
  let line := (Line.parse {} text).line
  if line.statements.isEmpty then return ({ interpreter with line }, !line.flags.exit)
  let (status, line, jobs) ← line.run interpreter.settings interpreter.jobs
  return ({ interpreter with line, jobs, lastStatus := status }, !line.flags.exit)

theorem execute_of_accepts (accepts : (Line.parse {} text).error? = none) :
    interpreter.execute text = interpreter.settings.console.log (parsedText text) >>=
      fun _ => interpreter.carryOut text := by
  rw [execute_eq]
  simp only [accepts]
  rfl

theorem line_run_eq (settings : Settings) (jobs : JobTable) {line : Line}
    (clear : line.flags.error = false) :
    line.run settings jobs =
      Line.runStatements settings line.flags { jobs } line.statements >>= fun progress =>
        pure (progress.status, if progress.error then line.markError else line,
          progress.jobs) := by
  rw [Line.run, if_neg (by simp [clear])]

section Join

variable {first second : Word} {tokens : List Token}

end Join

/-! ## A message that cannot be written -/

def logged (message : String) : Event :=
  let text := (Console.debugText { debug := true } message).toUTF8
  .answered (.write standardError text) (.ok text.size)

end Interpreter

end PipelineShell
