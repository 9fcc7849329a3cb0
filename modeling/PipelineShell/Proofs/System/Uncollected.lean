import PipelineShell.Proofs.System.Trace

namespace PipelineShell

namespace Event

/-- The child that a process collects. A blocking wait comes back only when the child has been
collected, even where it comes back with an error; a poll collects no other child. -/
def collected? : Event → Option Int
  | .answered (.wait pid .block) _ => some pid
  | .answered (.wait pid .poll) (.ok report) => if report = .running then none else some pid
  | _ => none

def uncollected (kin : List Int) : Event → List Int
  | .forked pid _ _ => pid :: kin
  | .answered request reply => kin.filter fun pid => (answered request reply).collected? ≠ some pid

/-- What the system promises: a new child is none of those that are uncollected, and a poll does not
deny a child that is. -/
def KeepsTrack (kin : List Int) : Event → Prop
  | .forked pid _ _ => pid ∉ kin
  | .answered (.wait pid .poll) reply => reply = .error .noChild → pid ∉ kin
  | _ => True

end Event

def uncollected (kin : List Int) : List Event → List Int
  | [] => kin
  | event :: rest => uncollected (event.uncollected kin) rest

def KeepsTrack (kin : List Int) : List Event → Prop
  | [] => True
  | event :: rest => event.KeepsTrack kin ∧ KeepsTrack (event.uncollected kin) rest

variable {kin : List Int} {events first second : List Event}

@[simp] theorem uncollected_nil : uncollected kin [] = kin := rfl

@[simp] theorem uncollected_forked (pid : Int) (child : List Event) (fate : Fate)
    (rest : List Event) :
    uncollected kin (.forked pid child fate :: rest) = uncollected (pid :: kin) rest := rfl

@[simp] theorem uncollected_append (kin : List Int) (first second : List Event) :
    uncollected kin (first ++ second) = uncollected (uncollected kin first) second := by
  induction first generalizing kin with
  | nil => rfl
  | cons event first ih => exact ih _

@[simp] theorem keepsTrack_nil : KeepsTrack kin [] := trivial

theorem keepsTrack_append :
    KeepsTrack kin (first ++ second) ↔
      KeepsTrack kin first ∧ KeepsTrack (uncollected kin first) second := by
  induction first generalizing kin with
  | nil => simp
  | cons event first ih => simp [KeepsTrack, uncollected, ih, and_assoc]

theorem uncollected_waited (pid : Int) (reply : Except Errno ChildReport) (rest : List Event) :
    uncollected kin (.answered (.wait pid .block) reply :: rest) =
      uncollected (kin.filter (pid ≠ ·)) rest := by
  simp [uncollected, Event.uncollected, Event.collected?]

namespace Event

theorem uncollected_answered_subset (request : Call) (reply : request.Reply) :
    uncollected kin (.answered request reply) ⊆ kin :=
  fun _ member => (List.mem_filter.1 member).1

theorem not_mem_uncollected {event : Event} {pid : Int} (collected : event.collected? = some pid) :
    pid ∉ event.uncollected kin := by
  cases event with
  | forked => cases collected
  | answered request reply => simp [uncollected, collected]

end Event

abbrev Quiet (events : List Event) : Prop :=
  Only (fun request => ∀ pid mode, request ≠ .wait pid mode) events

theorem Quiet.uncollected_eq (quiet : Quiet events) (kin : List Int) :
    uncollected kin events = kin := by
  induction events with
  | nil => rfl
  | cons event rest ih =>
    cases event with
    | forked pid child fate => exact absurd quiet not_only_forked
    | answered request reply =>
      obtain ⟨waitless, quiet⟩ := only_answered.1 quiet
      have none : (Event.answered request reply).collected? = none := by
        cases request with
        | wait pid mode => exact absurd rfl (waitless pid mode)
        | _ => rfl
      have unchanged : (Event.answered request reply).uncollected kin = kin := by
        simp [Event.uncollected, none]
      rw [uncollected, unchanged, ih quiet]

inductive WaitsForChild : List Event → Prop
  | childless {events : List Event} (quiet : Quiet events) : WaitsForChild events
  | waits {before waiting after : List Event} {pid : Int} {child : List Event} {fate : Fate}
    {reply : Except Errno ChildReport} (quiet : Quiet before) (quiet' : Quiet waiting)
    (quiet'' : Quiet after) :
    WaitsForChild
      (before ++ .forked pid child fate :: (waiting ++ .answered (.wait pid .block) reply :: after))

namespace WaitsForChild

theorem within (waits : WaitsForChild events) (before : Quiet first) (after : Quiet second) :
    WaitsForChild (first ++ (events ++ second)) := by
  cases waits with
  | childless quiet => exact .childless (only_append.2 ⟨before, only_append.2 ⟨quiet, after⟩⟩)
  | @waits start waiting rest pid child fate reply quiet quiet' quiet'' =>
    have whole := @WaitsForChild.waits _ _ _ pid child fate reply (only_append.2 ⟨before, quiet⟩)
      quiet' (only_append.2 ⟨quiet'', after⟩)
    simpa using whole

theorem length_children_le (waits : WaitsForChild events) : (children events).length ≤ 1 := by
  cases waits with
  | childless quiet => simp [quiet.children_eq]
  | waits quiet quiet' quiet'' =>
    simp [quiet.children_eq, quiet'.children_eq, quiet''.children_eq]

theorem uncollected_eq (waits : WaitsForChild events) (tracks : KeepsTrack kin events) :
    uncollected kin events = kin := by
  cases waits with
  | childless quiet => exact quiet.uncollected_eq kin
  | @waits before waiting after pid child fate reply quiet quiet' quiet'' =>
    have isNew : pid ∉ kin := by
      have forks := (keepsTrack_append.1 tracks).2.1
      rwa [quiet.uncollected_eq] at forks
    have collects : (pid :: kin).filter (pid ≠ ·) = kin := by
      rw [List.filter_cons_of_neg (by simp)]
      refine List.filter_eq_self.2 fun other member => decide_eq_true ?_
      rintro rfl
      exact isNew member
    rw [uncollected_append, quiet.uncollected_eq, uncollected_forked, uncollected_append,
      quiet'.uncollected_eq, uncollected_waited, collects, quiet''.uncollected_eq]

end WaitsForChild

end PipelineShell
