import PipelineShell.Proofs.System.Run

namespace PipelineShell

/-! ## Everything that a process and its descendants do -/

mutual
def Event.tree : Event → List Event
  | .answered request reply => [.answered request reply]
  | .forked pid child fate => .forked pid child fate :: tree child

def tree : List Event → List Event
  | [] => []
  | event :: rest => event.tree ++ tree rest
end

@[simp] theorem tree_nil : tree [] = [] := rfl

@[simp] theorem tree_answered (request : Call) (reply : request.Reply) (rest : List Event) :
    tree (.answered request reply :: rest) = .answered request reply :: tree rest := rfl

@[simp] theorem tree_forked (pid : Int) (child : List Event) (fate : Fate) (rest : List Event) :
    tree (.forked pid child fate :: rest) = .forked pid child fate :: (tree child ++ tree rest) :=
  rfl

@[simp] theorem tree_append (first second : List Event) :
    tree (first ++ second) = tree first ++ tree second := by
  induction first with
  | nil => rfl
  | cons event first ih => cases event <;> simp [ih]

theorem mem_tree {events : List Event} {event : Event} (member : event ∈ events) :
    event ∈ tree events := by
  obtain ⟨before, after, rfl⟩ := List.append_of_mem member
  cases event <;> simp

/-! ## Children -/

structure Child where
  pid : Int
  events : List Event
  fate : Fate

def children : List Event → List Child
  | [] => []
  | .answered .. :: rest => children rest
  | .forked pid child fate :: rest => ⟨pid, child, fate⟩ :: children rest

@[simp] theorem children_nil : children [] = [] := rfl

@[simp] theorem children_answered (request : Call) (reply : request.Reply) (rest : List Event) :
    children (.answered request reply :: rest) = children rest := rfl

@[simp] theorem children_forked (pid : Int) (child : List Event) (fate : Fate)
    (rest : List Event) :
    children (.forked pid child fate :: rest) = ⟨pid, child, fate⟩ :: children rest := rfl

@[simp] theorem children_append (first second : List Event) :
    children (first ++ second) = children first ++ children second := by
  induction first with
  | nil => rfl
  | cons event first ih => cases event <;> simp [ih]

/-! ## Writes -/

def Event.write? : Event → Option (Descriptor × ByteArray)
  | .answered (.write descriptor data) _ => some (descriptor, data)
  | _ => none

def writes (events : List Event) : List (Descriptor × ByteArray) :=
  (tree events).filterMap Event.write?

@[simp] theorem writes_nil : writes [] = [] := rfl

@[simp] theorem writes_append (first second : List Event) :
    writes (first ++ second) = writes first ++ writes second := by
  simp [writes]

@[simp] theorem writes_forked (pid : Int) (child rest : List Event) (fate : Fate) :
    writes (.forked pid child fate :: rest) = writes child ++ writes rest := by
  rw [writes, tree_forked, List.filterMap_cons_none rfl, List.filterMap_append]
  rfl

@[simp] theorem writes_write (descriptor : Descriptor) (data : ByteArray)
    (reply : Except Errno Nat) (rest : List Event) :
    writes (.answered (.write descriptor data) reply :: rest) =
      (descriptor, data) :: writes rest := rfl

theorem writes_answered {request : Call}
    (other : ∀ descriptor data, request ≠ .write descriptor data)
    (reply : request.Reply) (rest : List Event) :
    writes (.answered request reply :: rest) = writes rest := by
  cases request
  case write descriptor data => exact absurd rfl (other descriptor data)
  all_goals rfl

/-! ## Kinds of calls -/

def Only (allowed : Call → Prop) (events : List Event) : Prop :=
  ∀ event ∈ events, ∃ request reply, event = .answered request reply ∧ allowed request

variable {allowed : Call → Prop} {events : List Event}

@[simp] theorem only_nil : Only allowed [] := nofun

@[simp] theorem only_answered {request : Call} {reply : request.Reply} {rest : List Event} :
    Only allowed (.answered request reply :: rest) ↔ allowed request ∧ Only allowed rest := by
  simp only [Only, List.forall_mem_cons]
  refine and_congr_left fun _ => ⟨?_, fun h => ⟨request, reply, rfl, h⟩⟩
  rintro ⟨_, _, same, h⟩
  cases same
  exact h

@[simp] theorem not_only_forked {pid : Int} {child rest : List Event} {fate : Fate} :
    ¬ Only allowed (.forked pid child fate :: rest) := by
  intro only
  obtain ⟨_, _, same, -⟩ := only _ List.mem_cons_self
  cases same

@[simp] theorem only_append {first second : List Event} :
    Only allowed (first ++ second) ↔ Only allowed first ∧ Only allowed second :=
  List.forall_mem_append

namespace Only

theorem mono {weaker : Call → Prop} (only : Only allowed events)
    (h : ∀ request, allowed request → weaker request) : Only weaker events := by
  intro event member
  obtain ⟨request, reply, same, ok⟩ := only event member
  exact ⟨request, reply, same, h request ok⟩

theorem of_mem (only : Only allowed events) {request : Call} {reply : request.Reply}
    (member : .answered request reply ∈ events) : allowed request := by
  obtain ⟨_, _, same, ok⟩ := only _ member
  cases same
  exact ok

theorem children_eq (only : Only allowed events) : children events = [] := by
  induction events with
  | nil => rfl
  | cons event rest ih =>
    cases event with
    | answered request reply => exact ih (only_answered.1 only).2
    | forked pid child fate => exact absurd only not_only_forked

theorem tree_eq (only : Only allowed events) : tree events = events := by
  induction events with
  | nil => rfl
  | cons event rest ih =>
    cases event with
    | answered request reply => rw [tree_answered, ih (only_answered.1 only).2]
    | forked pid child fate => exact absurd only not_only_forked

theorem of_mem_writes (only : Only allowed events) {descriptor : Descriptor} {data : ByteArray}
    (member : (descriptor, data) ∈ writes events) : allowed (.write descriptor data) := by
  rw [writes, only.tree_eq, List.mem_filterMap] at member
  obtain ⟨event, member, written⟩ := member
  obtain ⟨request, reply, rfl, ok⟩ := only event member
  cases request
  case write => cases written; exact ok
  all_goals cases written

theorem writes_eq (only : Only allowed events)
    (silent : ∀ descriptor data, ¬ allowed (.write descriptor data)) : writes events = [] := by
  rw [List.eq_nil_iff_forall_not_mem]
  rintro ⟨descriptor, data⟩ member
  exact silent descriptor data (only.of_mem_writes member)

end Only

open PipelineShell.Action

def Action.Calls {α : Type} (allowed : Call → Prop) : Action α → Prop
  | .done _ | .exhausted => True
  | .call request next =>
    ∀ reply, (allowed request ∧ request.childReply? = none) ∧ (next reply).Calls allowed

namespace Action

variable {α β σ : Type}

theorem calls_perform {request : Call} (ok : allowed request)
    (single : request.childReply? = none) : (perform request).Calls allowed :=
  fun _ => ⟨⟨ok, single⟩, trivial⟩

theorem calls_perform_bind {request : Call} {next : request.Reply → Action β}
    (ok : allowed request) (single : request.childReply? = none)
    (h : ∀ reply, (next reply).Calls allowed) : (perform request >>= next).Calls allowed :=
  fun reply => ⟨⟨ok, single⟩, h reply⟩

theorem calls_exit (code : Nat) : (exit code : Action α).Calls allowed := nofun

theorem calls_die (signal : Nat) : (die signal : Action α).Calls allowed := nofun

theorem Calls.bind {action : Action α} {f : α → Action β} (h : action.Calls allowed)
    (h' : ∀ value, (f value).Calls allowed) : (action >>= f).Calls allowed := by
  induction action with
  | done value => exact h' value
  | exhausted => trivial
  | call request next ih => exact fun reply => ⟨(h reply).1, ih reply (h reply).2⟩

theorem Calls.mono {weaker : Call → Prop} {action : Action α} (h : action.Calls allowed)
    (weaken : ∀ request, allowed request → weaker request) : action.Calls weaker := by
  induction action with
  | done value => trivial
  | exhausted => trivial
  | call request next ih =>
    exact fun reply => ⟨(h reply).1.imp_left (weaken request), ih reply (h reply).2⟩

theorem calls_loop {step : σ → Action (Turn σ α)} (h : ∀ state, (step state).Calls allowed)
    (turns : Nat) (state : σ) : (loop step turns state).Calls allowed := by
  induction turns generalizing state with
  | zero => trivial
  | succ turns ih =>
    refine (h state).bind fun turn => ?_
    cases turn with
    | again state => exact ih state
    | leave value => trivial

end Action

theorem Runs.only {α : Type} {action : Action α} {outcome : Outcome α}
    (run : Runs action events outcome) (calls : action.Calls allowed) : Only allowed events := by
  induction run with
  | done | exhausted | pending | exit | die | exec | execFile => exact only_nil
  | call reply single rest ih => exact only_answered.2 ⟨(calls reply).1.1, ih (calls reply).2⟩
  | fork => cases (calls (.ok .child)).1.2

/-! ## Closing -/

def IsClose (descriptors : List Descriptor) (request : Call) : Prop :=
  ∃ descriptor ∈ descriptors, request = .close descriptor

theorem IsClose.of_subset {descriptors larger : List Descriptor} {request : Call}
    (closes : IsClose descriptors request) (subset : descriptors ⊆ larger) :
    IsClose larger request := by
  obtain ⟨descriptor, member, rfl⟩ := closes
  exact ⟨descriptor, subset member, rfl⟩

theorem calls_closeAll (descriptors : List Descriptor) :
    (closeAll descriptors).Calls (IsClose descriptors) := by
  induction descriptors with
  | nil => trivial
  | cons descriptor rest ih =>
    refine fun _ => ⟨⟨⟨descriptor, .head _, rfl⟩, rfl⟩, ih.mono fun request closes => ?_⟩
    exact closes.of_subset (List.subset_cons_self ..)

end PipelineShell
