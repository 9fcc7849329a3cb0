import PipelineShell.Proofs.Interpreter.Children
import PipelineShell.Proofs.System.Behaviour

namespace PipelineShell

theorem Action.Lasting.stays {α : Type} {room : Nat} {action : Action α} {events : List Event}
    {outcome : Outcome α} (lasting : action.Lasting room) (run : Runs action events outcome) :
    outcome.Stays := by
  rintro program arguments rfl
  rcases lasting.ended run with same | ⟨same, -⟩ <;> cases same

namespace Interpreter

open PipelineShell.Action

variable {interpreter next : Interpreter} {text : Word} {events : List Event}

/-! ## What executing a text goes by -/

def accepts (text : Word) : Bool := (Line.parse {} text).error?.isNone

theorem execute_forgets (interpreter : Interpreter) (line : Line) (text : Word) :
    { interpreter with line }.execute text = interpreter.execute text := rfl

theorem execute_of_rejects {error : ParseError}
    (rejects : (Line.parse {} text).error? = some error) :
    interpreter.execute text =
      interpreter.settings.console.error ("syntax error: " ++ error.message) >>= fun _ =>
        pure ({ interpreter with line := {}, lastStatus := 2 }, true) := by
  rw [execute_eq]
  simp only [rejects]
  rfl

theorem lasting_execute_of_rejects {room : Nat} (rejects : accepts text = false) :
    (interpreter.execute text).Lasting room := by
  obtain ⟨error, rejects⟩ := Option.isSome_iff_exists.1 (Option.isNone_eq_false_iff.1 rejects)
  rw [execute_of_rejects rejects]
  exact (Console.lasting_error ..).bind fun _ _ _ => lasting_done _

def restated (text : Word) (status : Nat) : Interpreter × Bool → Interpreter × Bool
  | (next, goesOn) =>
    (if (Line.parse {} text).line.statements.isEmpty then { next with lastStatus := status }
      else next, goesOn)

theorem execute_restated (reads : (Line.parse {} text).error? = none) (status : Nat) :
    { interpreter with lastStatus := status }.execute text =
      interpreter.execute text >>= fun left => pure (restated text status left) := by
  rw [execute_of_accepts reads, execute_of_accepts reads, Action.bind_assoc]
  congr 1
  funext _
  unfold carryOut restated
  by_cases empty : (Line.parse {} text).line.statements = []
  · simp [empty]
  · simp [empty]

theorem Executes.elsewhere {upshot : Upshot} {outcome : Outcome (Interpreter × Bool)}
    (reads : (Line.parse {} text).error? = none)
    (executes : Executes interpreter text events upshot outcome) (line : Line) (status : Nat) :
    Executes { interpreter with line, lastStatus := status } text events upshot
      (outcome.map fun (next, goesOn) =>
        ({ next with lastStatus := upshot.status?.getD status }, goesOn)) := by
  cases executes with
  | unfinished run =>
    refine .unfinished ?_
    rw [execute_forgets { interpreter with lastStatus := status } line, execute_restated reads,
      runs_map_iff (lasting_execute ..).contained]
    exact ⟨_, rfl, run⟩
  | rejected rejects => cases reads.symm.trans rejects
  | idle accepts empty logs => exact .idle accepts empty logs
  | ran accepts some logs run => exact .ran accepts some logs run

/-! ## Episodes -/

/-- What executing a text has come to: its calls, and the job table and the answer when it is
over. -/
structure Episode where
  text : Word
  events : List Event
  upshot : Upshot
  left : Option (JobTable × Bool)

inductive Carries : Interpreter → List Episode → Outcome Interpreter → Prop
  | nil (interpreter : Interpreter) : Carries interpreter [] (.value interpreter)
  | unfinished {interpreter : Interpreter} {text : Word} {events : List Event} {fate : Fate}
    (executes : Executes interpreter text events .unfinished (.ended fate)) :
    Carries interpreter [⟨text, events, .unfinished, none⟩] (.ended fate)
  | cons {interpreter next : Interpreter} {text : Word} {events : List Event} {upshot : Upshot}
    {goesOn : Bool} {episodes : List Episode} {outcome : Outcome Interpreter}
    (executes : Executes interpreter text events upshot (.value (next, goesOn)))
    (others : Carries next episodes outcome) :
    Carries interpreter (⟨text, events, upshot, some (next.jobs, goesOn)⟩ :: episodes) outcome

def eventsOf (episodes : List Episode) : List Event := episodes.flatMap Episode.events

abbrev tasks (texts : List Word) : List Duty := texts.map .execute

def kept (episodes : List Episode) : List Episode := episodes.filter fun each => accepts each.text

variable {episodes : List Episode} {outcome : Outcome Interpreter}

theorem runs_attend_iff {outcome : Outcome Interpreter} :
    Runs (interpreter.attend (.execute text)) events outcome ↔
      ∃ whole : Outcome (Interpreter × Bool), outcome = whole.map Prod.fst ∧
        Runs (interpreter.execute text) events whole :=
  runs_map_iff (lasting_execute ..).contained Prod.fst

namespace Carries

theorem run (carries : Carries interpreter episodes outcome) :
    Runs (interpreter.serve (tasks (episodes.map Episode.text))) (eventsOf episodes) outcome := by
  induction carries with
  | nil interpreter => exact .done _
  | @unfinished interpreter text events fate executes =>
    have attends : Runs (interpreter.attend (.execute text)) events (.ended fate) :=
      runs_attend_iff.2 ⟨_, rfl, executes.run⟩
    have serves : Runs (interpreter.serve [.execute text]) events (.ended fate) :=
      attends.bind_ended (fun next => pure next) (lasting_attend ..).contained
    simpa [eventsOf, tasks] using serves
  | @cons interpreter next text events upshot goesOn episodes outcome executes others ih =>
    have attends : Runs (interpreter.attend (.execute text)) events (.value next) :=
      runs_attend_iff.2 ⟨_, rfl, executes.run⟩
    exact attends.bind (lasting_attend ..).contained ih

/-! ## Without the texts that cannot be read -/

theorem getLast?_cons {fate : Fate} (carries : Carries interpreter episodes outcome)
    (ended : outcome = .ended fate) {first : Episode} :
    (first :: episodes).getLast? = episodes.getLast? := by
  cases carries with
  | nil => cases ended
  | unfinished | cons => rw [List.getLast?_cons_cons]

theorem gives_up (carries : Carries interpreter episodes outcome) :
    ∀ fate, outcome = .ended fate → ∀ last ∈ episodes.getLast?, accepts last.text = false →
      fate = .pending ∨ fate = .exited panicStatus ∧ CutOff last.events := by
  induction carries with
  | nil => exact nofun
  | unfinished executes =>
    rintro _ ⟨⟩ _ ⟨⟩ rejects
    exact Lasting.cutOff (fun _ => lasting_execute_of_rejects rejects) executes.run
  | cons executes others ih =>
    intro fate ended
    rw [others.getLast?_cons ended]
    exact ih fate ended

end Carries

/-! ## The last status -/

def finalStatus (initial : Nat) (episodes : List Episode) : Nat :=
  episodes.foldl (fun status episode => episode.upshot.status?.getD status) initial

theorem Carries.lastStatus_eq {last : Interpreter} (carries : Carries interpreter episodes outcome)
    (ends : outcome = .value last) :
    last.lastStatus = finalStatus interpreter.lastStatus episodes := by
  induction carries with
  | nil =>
    cases ends
    rfl
  | unfinished => cases ends
  | cons executes others ih =>
    rw [ih ends, executes.lastStatus_eq]
    rfl

end Interpreter

end PipelineShell
