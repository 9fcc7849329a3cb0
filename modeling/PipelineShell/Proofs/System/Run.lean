import PipelineShell.System.Action

/-!
# Runs of actions

A run records what a process asks of the system, the answers, and for every child it forks what
that child does in its turn. The answers are arbitrary: `Runs` relates an action to all of its
runs. A run may stop at any call, so every moment of a process is the end of a run.

* `Runs.bind_iff`: a run of a sequence is a run of its first part and a run of its second part,
  provided that no forked child returns from the first part (`Action.Contained`).
-/

namespace PipelineShell

inductive Fate
  | exited (code : Nat)
  | killed (signal : Nat)
  | replaced (program : String) (arguments : List String)
  | pending
deriving DecidableEq

inductive Outcome (α : Type)
  | value (value : α)
  | ended (fate : Fate)

inductive Event
  | answered (request : Call) (reply : request.Reply)
  | forked (pid : Int) (child : List Event) (fate : Fate)

namespace Call

/-- Whether a reply is one of the two that a successful fork gives. -/
def forks : (request : Call) → request.Reply → Bool
  | fork, .ok _ => true
  | _, _ => false

def childReply? : (request : Call) → Option request.Reply
  | fork => some (.ok .child)
  | _ => none

def leaves : Call → Bool
  | exec .. | execFile .. | exit _ | die _ => true
  | _ => false

def isPlain : Call → Bool
  | fork | exec .. | execFile .. | exit _ | die _ => false
  | _ => true

theorem leaves_of_isPlain {request : Call} (plain : request.isPlain = true) :
    request.leaves = false := by
  cases request <;> first | rfl | cases plain

theorem childReply?_of_isPlain {request : Call} (plain : request.isPlain = true) :
    request.childReply? = none := by
  cases request <;> first | rfl | cases plain

theorem forks_of_childReply? {request : Call} {reply : request.Reply}
    (inChild : request.childReply? = some reply) : request.forks reply = true := by
  cases request
  case fork => cases inChild; rfl
  all_goals exact nomatch inChild

theorem childReply?_ne {request : Call} {reply : request.Reply}
    (single : request.forks reply = false) : request.childReply? ≠ some reply := by
  intro inChild
  rw [forks_of_childReply? inChild] at single
  cases single

end Call

open PipelineShell.Action

inductive Runs {α : Type} : Action α → List Event → Outcome α → Prop
  | done (value : α) : Runs (done value) [] (.value value)
  | exhausted : Runs exhausted [] (.ended .pending)
  | pending (request : Call) (next : request.Reply → Action α) :
    Runs (call request next) [] (.ended .pending)
  | exit (code : Nat) (next : Empty → Action α) :
    Runs (call (.exit code) next) [] (.ended (.exited code))
  | die (signal : Nat) (next : Empty → Action α) :
    Runs (call (.die signal) next) [] (.ended (.killed signal))
  | exec (program : String) (arguments : List String) (next : Errno → Action α) :
    Runs (call (.exec program arguments) next) [] (.ended (.replaced program arguments))
  | execFile (path : String) (arguments : List String) (next : Errno → Action α) :
    Runs (call (.execFile path arguments) next) [] (.ended (.replaced path arguments))
  | call {request : Call} {next : request.Reply → Action α} (reply : request.Reply)
      {events : List Event} {outcome : Outcome α} (single : request.forks reply = false)
      (rest : Runs (next reply) events outcome) :
    Runs (call request next) (.answered request reply :: events) outcome
  | fork {next : Except Errno Forked → Action α} (pid : Int) {child events : List Event}
      {fate : Fate} {outcome : Outcome α} (inChild : Runs (next (.ok .child)) child (.ended fate))
      (rest : Runs (next (.ok (.parent pid))) events outcome) :
    Runs (call .fork next) (.forked pid child fate :: events) outcome

variable {α β σ : Type} {events : List Event}

theorem exists_runs_nil (action : Action α) : ∃ outcome, Runs action [] outcome := by
  cases action with
  | done value => exact ⟨_, .done value⟩
  | exhausted => exact ⟨_, .exhausted⟩
  | call request next => exact ⟨_, .pending request next⟩

theorem runs_done_iff {value : α} {outcome : Outcome α} :
    Runs (done value) events outcome ↔ events = [] ∧ outcome = .value value := by
  constructor
  · rintro ⟨⟩
    exact ⟨rfl, rfl⟩
  · rintro ⟨rfl, rfl⟩
    exact .done value

theorem runs_call_iff {request : Call} {next : request.Reply → Action α} {outcome : Outcome α}
    (plain : request.isPlain = true) :
    Runs (call request next) events outcome ↔
      (events = [] ∧ outcome = .ended .pending) ∨
        ∃ reply rest, events = .answered request reply :: rest ∧
          Runs (next reply) rest outcome := by
  constructor
  · intro run
    cases run with
    | pending => exact .inl ⟨rfl, rfl⟩
    | call reply single rest => exact .inr ⟨reply, _, rfl, rest⟩
    | exit | die | exec | execFile | fork => cases plain
  · rintro (⟨rfl, rfl⟩ | ⟨reply, rest, rfl, run⟩)
    · exact .pending request next
    · refine .call reply ?_ run
      cases request <;> first | rfl | cases plain

theorem runs_perform_bind_iff {request : Call} {next : request.Reply → Action α}
    {outcome : Outcome α} (plain : request.isPlain = true) :
    Runs (perform request >>= next) events outcome ↔
      (events = [] ∧ outcome = .ended .pending) ∨
        ∃ reply rest, events = .answered request reply :: rest ∧
          Runs (next reply) rest outcome :=
  runs_call_iff plain

theorem runs_fork_iff {next : Except Errno Forked → Action α} {outcome : Outcome α} :
    Runs (perform .fork >>= next) events outcome ↔
      (events = [] ∧ outcome = .ended .pending) ∨
      (∃ errno rest, events = .answered .fork (.error errno) :: rest ∧
        Runs (next (.error errno)) rest outcome) ∨
      ∃ pid child fate rest, events = .forked pid child fate :: rest ∧
        Runs (next (.ok .child)) child (.ended fate) ∧
        Runs (next (.ok (.parent pid))) rest outcome := by
  constructor
  · intro run
    cases run with
    | pending => exact .inl ⟨rfl, rfl⟩
    | call reply single rest =>
      cases reply with
      | error errno => exact .inr (.inl ⟨errno, _, rfl, rest⟩)
      | ok forked => cases single
    | fork pid inChild rest => exact .inr (.inr ⟨pid, _, _, _, rfl, inChild, rest⟩)
  · rintro (⟨rfl, rfl⟩ | ⟨errno, rest, rfl, run⟩ | ⟨pid, child, fate, rest, rfl, inChild, run⟩)
    · exact .pending .fork next
    · exact @Runs.call _ .fork next (.error errno) _ _ rfl run
    · exact .fork pid inChild run

theorem runs_exec_iff {program : String} {arguments : List String} {next : Errno → Action α}
    {outcome : Outcome α} :
    Runs (perform (.exec program arguments) >>= next) events outcome ↔
      (events = [] ∧ outcome = .ended .pending) ∨
      (events = [] ∧ outcome = .ended (.replaced program arguments)) ∨
      ∃ errno rest, events = .answered (.exec program arguments) errno :: rest ∧
        Runs (next errno) rest outcome := by
  constructor
  · intro run
    cases run with
    | pending => exact .inl ⟨rfl, rfl⟩
    | exec => exact .inr (.inl ⟨rfl, rfl⟩)
    | call errno single rest => exact .inr (.inr ⟨errno, _, rfl, rest⟩)
  · rintro (⟨rfl, rfl⟩ | ⟨rfl, rfl⟩ | ⟨errno, rest, rfl, run⟩)
    · exact .pending (.exec program arguments) next
    · exact .exec program arguments next
    · exact @Runs.call _ (.exec program arguments) next errno _ _ rfl run

theorem runs_exit_iff {code : Nat} {outcome : Outcome α} :
    Runs (Action.exit code) events outcome ↔
      events = [] ∧ (outcome = .ended .pending ∨ outcome = .ended (.exited code)) := by
  constructor
  · intro run
    cases run with
    | pending => exact ⟨rfl, .inl rfl⟩
    | exit => exact ⟨rfl, .inr rfl⟩
    | call reply => exact nomatch (reply : Empty)
  · rintro ⟨rfl, rfl | rfl⟩
    · exact .pending _ _
    · exact .exit code _

namespace Action

theorem loop_succ (step : σ → Action (Turn σ α)) (turns : Nat) (state : σ) :
    loop step (turns + 1) state = step state >>= fun
      | .again state => loop step turns state
      | .leave value => done value := rfl

theorem exists_patience : ∃ turns, patience = turns + 1 + 1 := ⟨patience - 2, by decide⟩

def NeverReturns : Action α → Prop
  | done _ => False
  | call _ next => ∀ reply, NeverReturns (next reply)
  | exhausted => True

/-- No forked child returns from the action. -/
def Contained : Action α → Prop
  | done _ | exhausted => True
  | call request next =>
    (∀ reply ∈ request.childReply?, NeverReturns (next reply)) ∧ ∀ reply, Contained (next reply)

theorem NeverReturns.contained {action : Action α} (h : action.NeverReturns) :
    action.Contained := by
  induction action with
  | done value => exact h.elim
  | exhausted => trivial
  | call request next ih => exact ⟨fun reply _ => h reply, fun reply => ih reply (h reply)⟩

theorem NeverReturns.bind_left {action : Action α} (f : α → Action β) (h : action.NeverReturns) :
    (action >>= f).NeverReturns := by
  induction action with
  | done value => exact h.elim
  | exhausted => trivial
  | call request next ih => exact fun reply => ih reply (h reply)

theorem NeverReturns.bind_right {action : Action α} {f : α → Action β}
    (h : ∀ value, (f value).NeverReturns) : (action >>= f).NeverReturns := by
  induction action with
  | done value => exact h value
  | exhausted => trivial
  | call request next ih => exact fun reply => ih reply

@[simp] theorem neverReturns_exit (code : Nat) : (exit code : Action α).NeverReturns := nofun

@[simp] theorem neverReturns_die (signal : Nat) : (die signal : Action α).NeverReturns := nofun

@[simp] theorem neverReturns_giveUp : (giveUp : Action α).NeverReturns := neverReturns_exit _

@[simp] theorem contained_done (value : α) : (done value).Contained := trivial

@[simp] theorem contained_exhausted : (exhausted : Action α).Contained := trivial

theorem contained_call {request : Call} {next : request.Reply → Action α}
    (single : request.childReply? = none) (h : ∀ reply, (next reply).Contained) :
    (call request next).Contained :=
  ⟨fun reply member => by simp [single] at member, h⟩

theorem contained_perform_bind {request : Call} {next : request.Reply → Action α}
    (single : request.childReply? = none) (h : ∀ reply, (next reply).Contained) :
    (perform request >>= next).Contained :=
  contained_call single h

theorem Contained.bind {action : Action α} {f : α → Action β} (h : action.Contained)
    (h' : ∀ value, (f value).Contained) : (action >>= f).Contained := by
  induction action with
  | done value => exact h' value
  | exhausted => trivial
  | call request next ih =>
    exact ⟨fun reply member => (h.1 reply member).bind_left f, fun reply => ih reply (h.2 reply)⟩

/-- The process itself comes to the end of the action, if its calls are answered, and no forked
child does. -/
def Steady : Action α → Prop
  | done _ | exhausted => True
  | call request next =>
    request.leaves = false ∧ (∀ reply ∈ request.childReply?, NeverReturns (next reply)) ∧
      ∀ reply, request.childReply? ≠ some reply → Steady (next reply)

theorem Steady.contained {action : Action α} (h : action.Steady) : action.Contained := by
  induction action with
  | done value => trivial
  | exhausted => trivial
  | call request next ih =>
    refine ⟨h.2.1, fun reply => ?_⟩
    by_cases inChild : request.childReply? = some reply
    · exact (h.2.1 reply inChild).contained
    · exact ih reply (h.2.2 reply inChild)

@[simp] theorem contained_of_steady {action : Action α} (h : action.Steady) : action.Contained :=
  h.contained

@[simp] theorem steady_done (value : α) : (done value).Steady := trivial

@[simp] theorem steady_exhausted : (exhausted : Action α).Steady := trivial

theorem steady_call {request : Call} {next : request.Reply → Action α}
    (plain : request.isPlain = true) (h : ∀ reply, (next reply).Steady) :
    (call request next).Steady :=
  ⟨Call.leaves_of_isPlain plain,
    fun reply member => by simp [Call.childReply?_of_isPlain plain] at member,
    fun reply _ => h reply⟩

@[simp] theorem steady_perform {request : Call} (plain : request.isPlain = true) :
    (perform request).Steady :=
  steady_call plain fun _ => trivial

theorem steady_perform_bind {request : Call} {next : request.Reply → Action α}
    (plain : request.isPlain = true) (h : ∀ reply, (next reply).Steady) :
    (perform request >>= next).Steady :=
  steady_call plain h

theorem steady_fork_bind {next : Except Errno Forked → Action α}
    (inChild : (next (.ok .child)).NeverReturns) (failed : ∀ errno, (next (.error errno)).Steady)
    (inParent : ∀ pid, (next (.ok (.parent pid))).Steady) :
    (perform .fork >>= next).Steady := by
  refine ⟨rfl, fun reply member => ?_, fun reply other => ?_⟩
  · cases Option.some.inj member
    exact inChild
  · rcases reply with errno | _ | pid
    · exact failed errno
    · exact absurd rfl other
    · exact inParent pid

theorem Steady.bind {action : Action α} {f : α → Action β} (h : action.Steady)
    (h' : ∀ value, (f value).Steady) : (action >>= f).Steady := by
  induction action with
  | done value => exact h' value
  | exhausted => trivial
  | call request next ih =>
    exact ⟨h.1, fun reply member => (h.2.1 reply member).bind_left f,
      fun reply other => ih reply (h.2.2 reply other)⟩

theorem steady_loop {step : σ → Action (Turn σ α)} (h : ∀ state, (step state).Steady)
    (turns : Nat) (state : σ) : (loop step turns state).Steady := by
  induction turns generalizing state with
  | zero => trivial
  | succ turns ih =>
    refine (h state).bind fun turn => ?_
    cases turn with
    | again state => exact ih state
    | leave value => trivial

end Action

theorem Runs.pending_of_steady {action : Action α} (h : action.Steady) {fate : Fate}
    (run : Runs action events (.ended fate)) : fate = .pending := by
  induction action generalizing events with
  | done value => cases run
  | exhausted => cases run; rfl
  | call request next ih =>
    cases run with
    | pending => rfl
    | exit | die | exec | execFile => cases h.1
    | call reply single rest =>
      exact ih reply (h.2.2 reply (Call.childReply?_ne single)) rest
    | fork pid inChild rest => exact ih (.ok (.parent pid)) (h.2.2 _ nofun) rest

theorem runs_bind_iff_of_neverReturns {action : Action α} {f : α → Action β} {fate : Fate}
    (h : action.NeverReturns) :
    Runs (action >>= f) events (.ended fate) ↔ Runs action events (.ended fate) := by
  induction action generalizing events fate with
  | done value => exact h.elim
  | exhausted =>
    constructor <;> · rintro ⟨⟩; exact .exhausted
  | call request next ih =>
    constructor
    · intro run
      cases run with
      | pending => exact .pending request next
      | exit code => exact .exit code next
      | die signal => exact .die signal next
      | exec program arguments => exact .exec program arguments next
      | execFile path arguments => exact .execFile path arguments next
      | call reply single rest => exact .call reply single ((ih reply (h reply)).1 rest)
      | fork pid inChild rest =>
        exact .fork pid ((ih _ (h _)).1 inChild) ((ih _ (h _)).1 rest)
    · intro run
      cases run with
      | pending => exact .pending request _
      | exit code => exact .exit code _
      | die signal => exact .die signal _
      | exec program arguments => exact .exec program arguments _
      | execFile path arguments => exact .execFile path arguments _
      | call reply single rest => exact .call reply single ((ih reply (h reply)).2 rest)
      | fork pid inChild rest =>
        exact .fork pid ((ih _ (h _)).2 inChild) ((ih _ (h _)).2 rest)

namespace Runs

theorem bind {action : Action α} {f : α → Action β} {first second : List Event} {value : α}
    {outcome : Outcome β} (contained : action.Contained) (run : Runs action first (.value value))
    (run' : Runs (f value) second outcome) : Runs (action >>= f) (first ++ second) outcome := by
  induction action generalizing first with
  | done value => cases run; exact run'
  | exhausted => cases run
  | call request next ih =>
    cases run with
    | call reply single rest => exact .call reply single (ih reply (contained.2 reply) rest)
    | fork pid inChild rest =>
      exact .fork pid ((runs_bind_iff_of_neverReturns (contained.1 _ rfl)).2 inChild)
        (ih _ (contained.2 _) rest)

theorem bind_ended {action : Action α} (f : α → Action β) {fate : Fate}
    (contained : action.Contained) (run : Runs action events (.ended fate)) :
    Runs (action >>= f) events (.ended fate) := by
  induction action generalizing events with
  | done value => cases run
  | exhausted => cases run; exact .exhausted
  | call request next ih =>
    cases run with
    | pending => exact .pending request _
    | exit code => exact .exit code _
    | die signal => exact .die signal _
    | exec program arguments => exact .exec program arguments _
    | execFile path arguments => exact .execFile path arguments _
    | call reply single rest => exact .call reply single (ih reply (contained.2 reply) rest)
    | fork pid inChild rest =>
      exact .fork pid ((runs_bind_iff_of_neverReturns (contained.1 _ rfl)).2 inChild)
        (ih _ (contained.2 _) rest)

theorem bind_iff {action : Action α} {f : α → Action β} {outcome : Outcome β}
    (contained : action.Contained) :
    Runs (action >>= f) events outcome ↔
      (∃ first second value, events = first ++ second ∧ Runs action first (.value value) ∧
        Runs (f value) second outcome) ∨
      ∃ fate, outcome = .ended fate ∧ Runs action events (.ended fate) := by
  constructor
  · intro run
    induction action generalizing events with
    | done value => exact .inl ⟨[], events, value, rfl, .done value, run⟩
    | exhausted => cases run; exact .inr ⟨_, rfl, .exhausted⟩
    | call request next ih =>
      cases run with
      | pending => exact .inr ⟨_, rfl, .pending request next⟩
      | exit code => exact .inr ⟨_, rfl, .exit code next⟩
      | die signal => exact .inr ⟨_, rfl, .die signal next⟩
      | exec program arguments => exact .inr ⟨_, rfl, .exec program arguments next⟩
      | execFile path arguments => exact .inr ⟨_, rfl, .execFile path arguments next⟩
      | call reply single rest =>
        rcases ih reply (contained.2 reply) rest with
          ⟨first, second, value, rfl, run, run'⟩ | ⟨fate, rfl, run⟩
        · exact .inl ⟨_, second, value, rfl, .call reply single run, run'⟩
        · exact .inr ⟨fate, rfl, .call reply single run⟩
      | fork pid inChild rest =>
        have inChild := (runs_bind_iff_of_neverReturns (contained.1 _ rfl)).1 inChild
        rcases ih _ (contained.2 _) rest with
          ⟨first, second, value, rfl, run, run'⟩ | ⟨fate, rfl, run⟩
        · exact .inl ⟨_, second, value, rfl, .fork pid inChild run, run'⟩
        · exact .inr ⟨fate, rfl, .fork pid inChild run⟩
  · rintro (⟨first, second, value, rfl, run, run'⟩ | ⟨fate, rfl, run⟩)
    · exact run.bind contained run'
    · exact run.bind_ended f contained

theorem bind_value_iff {action : Action α} {f : α → Action β} {value : β}
    (contained : action.Contained) :
    Runs (action >>= f) events (.value value) ↔
      ∃ first second middle, events = first ++ second ∧ Runs action first (.value middle) ∧
        Runs (f middle) second (.value value) := by
  simp [bind_iff contained]

theorem before_done {action : Action α} {g : α → β} {value : β} (contained : action.Contained)
    (run : Runs (action >>= fun result => Action.done (g result)) events (.value value)) :
    ∃ result, Runs action events (.value result) ∧ value = g result := by
  obtain ⟨first, second, result, rfl, first_run, returns⟩ := (bind_value_iff contained).1 run
  obtain ⟨rfl, ⟨⟩⟩ := runs_done_iff.1 returns
  exact ⟨result, (List.append_nil first).symm ▸ first_run, rfl⟩

theorem bind_complete {action : Action α} {f : α → Action β} {outcome : Outcome β}
    (steady : action.Steady) (complete : outcome ≠ .ended .pending)
    (run : Runs (action >>= f) events outcome) :
    ∃ first second value, events = first ++ second ∧ Runs action first (.value value) ∧
      Runs (f value) second outcome := by
  rcases (bind_iff steady.contained).1 run with h | ⟨fate, rfl, first⟩
  · exact h
  · rw [first.pending_of_steady steady] at complete
    exact absurd rfl complete

theorem after_first {action : Action α} {f : α → Action β} {first second : List Event} {value : α}
    {outcome : Outcome β} (run : Runs action first (.value value))
    (whole : Runs (action >>= f) (first ++ second) outcome) : Runs (f value) second outcome := by
  induction action generalizing first with
  | done result =>
    cases run
    exact whole
  | exhausted => cases run
  | call request next ih =>
    cases run with
    | call reply single rest =>
      cases whole with
      | call _ _ whole => exact ih reply rest whole
    | fork pid inChild rest =>
      cases whole with
      | fork _ _ whole => exact ih _ rest whole

end Runs

end PipelineShell
