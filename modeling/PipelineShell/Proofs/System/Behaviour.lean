import PipelineShell.Proofs.System.Trace

namespace PipelineShell

open PipelineShell.Action

/-- The opens, pipes, forks, program starts and waits. -/
def Call.counts : Call → Bool
  | .openFile .. | .pipe | .fork | .exec .. | .execFile .. | .wait .. => true
  | _ => false

namespace Event

def request : Event → Call
  | .answered request _ => request
  | .forked .. => .fork

def counts (event : Event) : Bool := event.request.counts

end Event

/-- Which event may come next, after the events so far. -/
abbrev Behaviour := List Event → Event → Prop

namespace Behaviour

variable {behaviour : Behaviour} {past past' events first second : List Event}

def IsLimited (behaviour : Behaviour) : Prop :=
  ∀ past past' event, past.filter Event.counts = past'.filter Event.counts →
    behaviour past event → behaviour past' event

def Follows (behaviour : Behaviour) : List Event → List Event → Prop
  | _, [] => True
  | past, event :: rest => behaviour past event ∧ Follows behaviour (past ++ [event]) rest

theorem follows_append :
    behaviour.Follows past (first ++ second) ↔
      behaviour.Follows past first ∧ behaviour.Follows (past ++ first) second := by
  induction first generalizing past with
  | nil => simp [Follows]
  | cons event first ih => simp [Follows, ih, and_assoc]

namespace Follows

theorem of_same (limited : behaviour.IsLimited)
    (same : past.filter Event.counts = past'.filter Event.counts)
    (follows : behaviour.Follows past events) : behaviour.Follows past' events := by
  induction events generalizing past past' with
  | nil => trivial
  | cons event rest ih =>
    refine ⟨limited _ _ _ same follows.1, ih ?_ follows.2⟩
    rw [List.filter_append, List.filter_append, same]

theorem skip (limited : behaviour.IsLimited) (uncounted : ∀ event ∈ first, event.counts = false)
    (follows : behaviour.Follows past (first ++ second)) : behaviour.Follows past second := by
  refine (follows_append.1 follows).2.of_same limited ?_
  have none : first.filter Event.counts = [] :=
    List.filter_eq_nil_iff.2 fun event member => by simp [uncounted event member]
  rw [List.filter_append, none, List.append_nil]

end Follows

end Behaviour

theorem Only.uncounted {allowed : Call → Prop} {events : List Event} (only : Only allowed events)
    (silent : ∀ request, allowed request → request.counts = false) :
    ∀ event ∈ events, event.counts = false := by
  intro event member
  obtain ⟨request, reply, rfl, ok⟩ := only event member
  exact silent request ok

def Outcome.Stays {α : Type} (outcome : Outcome α) : Prop :=
  ∀ program arguments, outcome ≠ .ended (.replaced program arguments)

end PipelineShell
