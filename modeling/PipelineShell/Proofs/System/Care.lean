import PipelineShell.Proofs.Containment
import PipelineShell.Proofs.System.Objects

namespace PipelineShell

open PipelineShell.Action

variable {α β σ : Type} {events : List Event} {holdings : Holdings} {table : Table}

/-! ## What an exec would leave -/

def Table.Standing (table : Table) : Prop := ∀ descriptor ≤ 2, table descriptor ≠ .nothing

theorem Table.Standing.above (standing : table.Standing) {descriptor : Descriptor}
    (free : table descriptor = .nothing) : 2 < descriptor :=
  Nat.lt_of_not_le fun standard => standing descriptor standard free

namespace Holdings

/-- An exec would leave the standard descriptors open and nothing else. -/
structure Tidy (holdings : Holdings) : Prop where
  standard : ∀ descriptor ≤ 2, ∃ object, holdings.slot descriptor = some ⟨object, false⟩
  closes : ∀ descriptor, 2 < descriptor →
    ∀ slot ∈ holdings.slot descriptor, slot.closesOnExec = true

variable {descriptor : Descriptor}

theorem Tidy.standing (tidy : holdings.Tidy) : holdings.table.Standing := by
  intro descriptor standard
  obtain ⟨object, held⟩ := tidy.standard descriptor standard
  rw [isOpen_iff, held]
  nofun

theorem Tidy.atExec_iff (tidy : holdings.Tidy) (descriptor : Descriptor) :
    holdings.atExec descriptor ≠ none ↔ descriptor ≤ 2 := by
  rcases Nat.lt_or_ge 2 descriptor with above | standard
  · refine iff_of_false (fun left => left ?_) (Nat.not_le.2 above)
    unfold atExec
    cases held : holdings.slot descriptor with
    | none => rfl
    | some slot => simp [tidy.closes descriptor above slot held]
  · obtain ⟨object, held⟩ := tidy.standard descriptor standard
    exact iff_of_true (by simp [atExec, held]) standard

theorem Tidy.of_slot_eq {later : Holdings} (tidy : holdings.Tidy)
    (same : later.slot = holdings.slot) : later.Tidy := by
  refine ⟨fun descriptor standard => ?_, fun descriptor above slot held => ?_⟩
  · rw [same]
    exact tidy.standard descriptor standard
  · rw [same] at held
    exact tidy.closes descriptor above slot held

theorem Tidy.put_above (tidy : holdings.Tidy) (above : 2 < descriptor) {slot : Option Slot}
    (closes : ∀ made ∈ slot, made.closesOnExec = true) : (holdings.put descriptor slot).Tidy := by
  refine ⟨fun other standard => ?_, fun other above_other made held => ?_⟩
  · have apart : other ≠ descriptor := Nat.ne_of_lt (Nat.lt_of_le_of_lt standard above)
    rw [put_slot_of_ne apart]
    exact tidy.standard other standard
  · by_cases same : other = descriptor
    · subst same
      rw [put_slot_self] at held
      exact closes made held
    · rw [put_slot_of_ne same] at held
      exact tidy.closes other above_other made held

theorem Tidy.put_standard (tidy : holdings.Tidy) (standard : descriptor ≤ 2) (object : Object) :
    (holdings.put descriptor (some ⟨object, false⟩)).Tidy := by
  refine ⟨fun other standard_other => ?_, fun other above made held => ?_⟩
  · by_cases same : other = descriptor
    · subst same
      exact ⟨object, put_slot_self _⟩
    · rw [put_slot_of_ne same]
      exact tidy.standard other standard_other
  · have apart : other ≠ descriptor := Nat.ne_of_gt (Nat.lt_of_le_of_lt standard above)
    rw [put_slot_of_ne apart] at held
    exact tidy.closes other above made held

end Holdings

/-! ## Care -/

def Call.IsCareful (table : Table) : Call → Prop
  | .close descriptor => 2 < descriptor
  | .duplicateTo source target => table source ≠ .nothing ∧ target ≤ 2
  | _ => True

theorem Holdings.Tidy.after {request : Call} {reply : request.Reply} (tidy : holdings.Tidy)
    (careful : request.IsCareful holdings.table)
    (lawful : (Event.answered request reply).Lawful holdings.table) :
    (holdings.after (.answered request reply)).Tidy := by
  have above : ∀ given ∈ request.gains reply, 2 < given := fun given member =>
    tidy.standing.above (lawful.2 given member).1
  have closing : ∀ object, ∀ made ∈ some (Slot.mk object true), made.closesOnExec = true := by
    rintro object _ ⟨⟩
    rfl
  cases request with
  | pipe =>
    rcases reply with errno | ⟨readEnd, writeEnd⟩
    · exact tidy
    · have both := (tidy.put_above (above readEnd (by simp [Call.gains]))
        (closing (.readEnd holdings.fresh))).put_above (above writeEnd (by simp [Call.gains]))
          (closing (.writeEnd holdings.fresh))
      exact both.of_slot_eq rfl
  | openFile path mode =>
    rcases reply with errno | given
    · exact tidy
    · have one := tidy.put_above (above given (by simp [Call.gains]))
        (closing (.file holdings.fresh))
      exact one.of_slot_eq rfl
  | duplicateTo source target =>
    rcases reply with errno | ⟨⟩
    · exact tidy
    · rw [after_duplicateTo]
      split
      · exact tidy
      · obtain ⟨slot, held⟩ := Option.ne_none_iff_exists'.1 (isOpen_iff.1 careful.1)
        rw [duplicate, held]
        exact tidy.put_standard careful.2 _
  | duplicateFrom source least =>
    rcases reply with errno | copy
    · exact tidy
    · refine tidy.put_above (above copy (by simp [Call.gains])) fun made member => ?_
      obtain ⟨_, _, rfl⟩ := Option.map_eq_some_iff.1 member
      rfl
  | close descriptor => exact tidy.put_above careful (by simp)
  | _ => exact tidy

/-- The process and its descendants make only careful calls, and what the action returns and what
the process refers to then satisfy `post`. -/
def Action.Careful (post : α → Table → Prop) : Action α → Table → Prop
  | .done value, table => post value table
  | .exhausted, _ => True
  | .call request next, table =>
    request.IsCareful table ∧ ∀ reply, (Event.answered request reply).Lawful table →
      (next reply).Careful post (table.after (.answered request reply))

namespace Action

variable {post : α → Table → Prop} {post' : β → Table → Prop}

theorem Careful.mono {weaker : α → Table → Prop} {action : Action α}
    (h : action.Careful post table) (weaken : ∀ value table, post value table → weaker value table) :
    action.Careful weaker table := by
  induction action generalizing table with
  | done value => exact weaken value table h
  | exhausted => trivial
  | call request next ih => exact ⟨h.1, fun reply lawful => ih reply (h.2 reply lawful)⟩

theorem Careful.bind {action : Action α} {f : α → Action β} (h : action.Careful post table)
    (h' : ∀ value table, post value table → (f value).Careful post' table) :
    (action >>= f).Careful post' table := by
  induction action generalizing table with
  | done value => exact h' value table h
  | exhausted => trivial
  | call request next ih => exact ⟨h.1, fun reply lawful => ih reply (h.2 reply lawful)⟩

theorem careful_perform_bind {request : Call} {next : request.Reply → Action α}
    (careful : request.IsCareful table)
    (h : ∀ reply, (Event.answered request reply).Lawful table →
      (next reply).Careful post (table.after (.answered request reply))) :
    (perform request >>= next).Careful post table :=
  ⟨careful, h⟩

theorem careful_fork_bind {next : Except Errno Forked → Action α}
    (failed : ∀ errno, (next (.error errno)).Careful post table)
    (inChild : (next (.ok .child)).Careful post table)
    (inParent : ∀ pid, (next (.ok (.parent pid))).Careful post table) :
    (perform .fork >>= next).Careful post table := by
  refine ⟨trivial, fun reply _ => ?_⟩
  rcases reply with errno | _ | pid
  · exact failed errno
  · exact inChild
  · exact inParent pid

theorem careful_exit (code : Nat) : (exit code).Careful post table :=
  ⟨trivial, nofun⟩

end Action

def Call.IsInert (request : Call) : Prop :=
  ∀ table : Table, request.IsCareful table ∧
    ∀ reply, table.after (.answered request reply) = table

def Table.without (table : Table) (descriptors : List Descriptor) : Table := fun descriptor =>
  if descriptor ∈ descriptors then .nothing else table descriptor

namespace Action

variable {post : α → Table → Prop}

theorem Calls.careful {allowed : Call → Prop} {action : Action α} (calls : action.Calls allowed)
    (inert : ∀ request, allowed request → request.IsInert) :
    action.Careful (fun _ later => later = table) table := by
  induction action with
  | done value => rfl
  | exhausted => trivial
  | call request next ih =>
    refine ⟨?_, fun reply _ => ?_⟩
    · cases request with
      | duplicateTo | close => exact (inert _ (calls (.ok ())).1.1 table).1
      | _ => trivial
    · obtain ⟨allowed, later⟩ := calls reply
      rw [(inert request allowed.1 table).2 reply]
      exact ih reply later

theorem careful_closeAll {descriptors : List Descriptor}
    (above : ∀ descriptor ∈ descriptors, 2 < descriptor) :
    (closeAll descriptors).Careful (fun _ later => later = table.without descriptors) table := by
  induction descriptors generalizing table with
  | nil => exact funext fun _ => rfl
  | cons descriptor rest ih =>
    refine ⟨above descriptor (by simp), fun reply _ => ?_⟩
    refine (ih fun other member => above other (by simp [member])).mono ?_
    rintro _ _ rfl
    funext other
    by_cases same : other = descriptor <;> simp [Table.without, Table.after, same]

theorem careful_loop {step : σ → Action (Turn σ α)} {invariant : σ → Table → Prop}
    (h : ∀ state table, invariant state table → (step state).Careful (fun turn later =>
      match turn with
      | .again state => invariant state later
      | .leave value => post value later) table)
    (turns : Nat) {state : σ} (start : invariant state table) :
    (loop step turns state).Careful post table := by
  induction turns generalizing state table with
  | zero => trivial
  | succ turns ih =>
    refine (h state table start).bind fun turn later good => ?_
    cases turn with
    | again state => exact ih good
    | leave value => exact good

end Action

def OrUnchanged {ε : Type} (table : Table) (post : α → Table → Prop) :
    Except ε α → Table → Prop
  | .error _, later => later = table
  | .ok value, later => post value later

theorem Action.careful_uninterrupted {post : α → Table → Prop} {action : Action (Except Errno α)}
    (h : action.Careful (OrUnchanged table post) table) :
    (uninterrupted action).Careful (OrUnchanged table post) table := by
  refine @careful_loop _ _ table _ _ (fun _ later => later = table) (fun _ later same => ?_) _ () rfl
  subst same
  refine h.bind fun result later has => ?_
  cases result with
  | ok value => exact has
  | error errno =>
    show Careful _ (done _) _
    split <;> exact has

/-! ## What careful processes become -/

def Image.HoldsStandard (image : Image) : Prop :=
  ∀ descriptor, image.holds descriptor ≠ none ↔ descriptor ≤ 2

def Outcome.fate : Outcome α → Fate
  | .value _ => .pending
  | .ended fate => fate

theorem Runs.careful {post : α → Table → Prop} {action : Action α} {outcome : Outcome α}
    (run : Runs action events outcome) (careful : action.Careful post holdings.table)
    (lawful : Lawful holdings.table events) (tidy : holdings.Tidy) :
    (∀ image ∈ images holdings events outcome.fate, image.HoldsStandard) ∧
      (holdings.afterAll events).Tidy ∧
      ∀ value, outcome = .value value → post value (holdings.afterAll events).table := by
  induction run generalizing holdings with
  | done value =>
    refine ⟨by simp [Outcome.fate, Holdings.becomes], tidy, ?_⟩
    rintro _ ⟨⟩
    exact careful
  | exhausted | pending | exit | die =>
    exact ⟨by simp [Outcome.fate, Holdings.becomes], tidy, by simp⟩
  | exec | execFile =>
    refine ⟨?_, tidy, by simp⟩
    simp only [Outcome.fate, images_nil, Holdings.becomes, List.mem_singleton]
    rintro _ rfl
    exact tidy.atExec_iff
  | @call request next reply rest outcome single run ih =>
    obtain ⟨lawful_call, -, lawful_rest⟩ := lawful
    have careful_rest := careful.2 reply lawful_call
    rw [← Holdings.table_after] at careful_rest lawful_rest
    rw [images_answered]
    exact ih careful_rest lawful_rest (tidy.after careful.1 lawful_call)
  | @fork next pid child rest fate outcome inChild run ih_child ih =>
    obtain ⟨lawful_child, -, lawful_rest⟩ := lawful
    -- Both processes have the descriptors from before the fork.
    have tidy_child : holdings.inChild.Tidy := tidy.of_slot_eq rfl
    have tidy_rest : (holdings.after (.forked pid child fate)).Tidy := tidy.of_slot_eq rfl
    have careful_child := careful.2 (.ok .child) ⟨.nil, by simp [Call.gains]⟩
    have careful_rest := careful.2 (.ok (.parent pid)) ⟨.nil, by simp [Call.gains]⟩
    have standard_child := (@ih_child holdings.inChild careful_child lawful_child tidy_child).1
    obtain ⟨standard_rest, result⟩ :=
      @ih (holdings.after (.forked pid child fate)) careful_rest lawful_rest tidy_rest
    refine ⟨fun image member => ?_, result⟩
    rw [images_forked, List.mem_append] at member
    exact member.elim (standard_child image) (standard_rest image)

theorem Runs.exists_first {action : Action α} {first second : List Event} {outcome : Outcome α}
    (run : Runs action (first ++ second) outcome) : ∃ outcome, Runs action first outcome := by
  induction first generalizing action with
  | nil => exact exists_runs_nil action
  | cons event first ih =>
    cases run with
    | call reply single rest =>
      obtain ⟨_, rest⟩ := ih rest
      exact ⟨_, .call reply single rest⟩
    | fork pid inChild rest =>
      obtain ⟨_, rest⟩ := ih rest
      exact ⟨_, .fork pid inChild rest⟩

/-! ## What the children of a process do -/

def Action.Forks (inChild : Table → List Event → Fate → Prop) : Action α → Table → Prop
  | .done _, _ | .exhausted, _ => True
  | .call request next, table =>
    (∀ reply ∈ request.childReply?, ∀ child fate,
      Runs (next reply) child (.ended fate) → inChild table child fate) ∧
    ∀ reply, request.childReply? ≠ some reply → (Event.answered request reply).Lawful table →
      (next reply).Forks inChild (table.after (.answered request reply))

namespace Action

variable {inChild : Table → List Event → Fate → Prop}

theorem Forks.mono {weaker : Table → List Event → Fate → Prop} {action : Action α}
    (forks : action.Forks inChild table)
    (weaken : ∀ table child fate, inChild table child fate → weaker table child fate) :
    action.Forks weaker table := by
  induction action generalizing table with
  | done value => trivial
  | exhausted => trivial
  | call request next ih =>
    refine ⟨fun reply member child fate run => ?_, fun reply other lawful => ?_⟩
    · exact weaken _ _ _ (forks.1 reply member child fate run)
    · exact ih reply (forks.2 reply other lawful)

theorem Forks.bind {post : α → Table → Prop} {action : Action α} {f : α → Action β}
    (forks : action.Forks inChild table) (contained : action.Contained)
    (careful : action.Careful post table)
    (h : ∀ value table, post value table → (f value).Forks inChild table) :
    (action >>= f).Forks inChild table := by
  induction action generalizing table with
  | done value => exact h value table careful
  | exhausted => trivial
  | call request next ih =>
    refine ⟨fun reply member child fate run => ?_, fun reply other lawful => ?_⟩
    -- No child returns from the first part, so its whole run is one of the first part.
    · exact forks.1 reply member child fate
        ((runs_bind_iff_of_neverReturns (contained.1 reply member)).1 run)
    · exact ih reply (forks.2 reply other lawful) (contained.2 reply) (careful.2 reply lawful)

theorem Calls.forks {allowed : Call → Prop} {action : Action α} (calls : action.Calls allowed) :
    action.Forks inChild table := by
  induction action generalizing table with
  | done value => trivial
  | exhausted => trivial
  | call request next ih =>
    refine ⟨fun reply member => ?_, fun reply _ _ => ih reply (calls reply).2⟩
    simp [(calls reply).1.2] at member

end Action

theorem Runs.forks {inChild : Table → List Event → Fate → Prop} {action : Action α}
    {outcome : Outcome α} (run : Runs action events outcome) (forks : action.Forks inChild table)
    (lawful : Lawful table events) {before child after : List Event} {pid : Int} {fate : Fate}
    (split : events = before ++ .forked pid child fate :: after) :
    inChild (table.afterAll before) child fate := by
  induction before generalizing action table events with
  | nil =>
    subst split
    cases run with
    | fork pid run rest => exact forks.1 _ rfl child fate run
  | cons event before ih =>
    subst split
    obtain ⟨lawful_event, -, lawful⟩ := lawful
    cases run with
    | call reply single rest =>
      exact ih rest (forks.2 reply (Call.childReply?_ne single) lawful_event) lawful rfl
    | fork pid run rest => exact ih rest (forks.2 _ nofun ⟨.nil, nofun⟩) lawful rfl

end PipelineShell
