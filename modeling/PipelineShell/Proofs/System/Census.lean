import PipelineShell.Proofs.System.Objects

namespace PipelineShell

/-! ## The processes of a run -/

structure Process where
  lineage : List Nat
  holds : Descriptor → Option Object

def Holdings.remains (holdings : Holdings) : Fate → List Process
  | .pending => [⟨holdings.lineage, fun descriptor => (holdings.slot descriptor).map (·.object)⟩]
  | .replaced .. => [⟨holdings.lineage, holdings.atExec⟩]
  | .exited _ | .killed _ => []

mutual
def Event.census (holdings : Holdings) : Event → List Process
  | .answered .. => []
  | .forked _ child fate => census holdings.inChild child fate

/-- The descendants of a process after these events, and the process itself, unless it has ended. -/
def census (holdings : Holdings) : List Event → Fate → List Process
  | [], fate => holdings.remains fate
  | event :: rest, fate => event.census holdings ++ census (holdings.after event) rest fate
end

def offspring (holdings : Holdings) (events : List Event) : List Process :=
  census holdings events (.exited 0)

section

variable {holdings : Holdings}

@[simp] theorem census_nil (fate : Fate) : census holdings [] fate = holdings.remains fate := by
  rw [census]

@[simp] theorem census_answered (request : Call) (reply : request.Reply) (rest : List Event)
    (fate : Fate) : census holdings (.answered request reply :: rest) fate =
      census (holdings.after (.answered request reply)) rest fate := by
  rw [census, Event.census, List.nil_append]

@[simp] theorem census_forked (pid : Int) (child rest : List Event) (end_ fate : Fate) :
    census holdings (.forked pid child end_ :: rest) fate =
      census holdings.inChild child end_ ++
        census (holdings.after (.forked pid child end_)) rest fate := by
  rw [census, Event.census]

theorem census_append (first second : List Event) (fate : Fate) :
    census holdings (first ++ second) fate =
      offspring holdings first ++ census (holdings.afterAll first) second fate := by
  induction first generalizing holdings with
  | nil => simp [offspring, Holdings.remains]
  | cons event first ih => cases event <;> simp [offspring, ih]

theorem Only.census_eq {allowed : Call → Prop} {events : List Event} (only : Only allowed events)
    (fate : Fate) : census holdings events fate = (holdings.afterAll events).remains fate := by
  induction events generalizing holdings with
  | nil => exact census_nil fate
  | cons event rest ih =>
    cases event with
    | answered request reply => rw [census_answered, ih (only_answered.1 only).2]; rfl
    | forked pid child fate => exact absurd only not_only_forked

theorem Only.offspring_eq {allowed : Call → Prop} {events : List Event}
    (only : Only allowed events) : offspring holdings events = [] :=
  only.census_eq _

end

/-! ## Where an object is held -/

def Object.name? : Object → Option Name
  | original _ => none
  | readEnd name | writeEnd name | file name => some name

def Call.duplicates (descriptor : Descriptor) : Call → Bool
  | duplicateTo source _ | duplicateFrom source _ => source == descriptor
  | _ => false

namespace Holdings

variable {holdings : Holdings} {descriptors : List Descriptor} {descriptor : Descriptor}
  {object : Object}

def HoldsOnlyAt (holdings : Holdings) (descriptors : List Descriptor) (object : Object) : Prop :=
  ∀ descriptor, ∀ slot ∈ holdings.slot descriptor, slot.object = object → descriptor ∈ descriptors

theorem HoldsOnlyAt.put (held : holdings.HoldsOnlyAt descriptors object) {slot : Option Slot}
    (other : ∀ made ∈ slot, made.object ≠ object) :
    (holdings.put descriptor slot).HoldsOnlyAt descriptors object := by
  intro target made member same
  by_cases same_target : target = descriptor
  · subst same_target
    rw [put_slot_self] at member
    exact absurd same (other made member)
  · rw [put_slot_of_ne same_target] at member
    exact held target made member same

theorem HoldsOnlyAt.put_at (held : holdings.HoldsOnlyAt descriptors object)
    (descriptor : Descriptor) (slot : Option Slot) :
    (holdings.put descriptor slot).HoldsOnlyAt (descriptor :: descriptors) object := by
  intro target made member same
  by_cases same_target : target = descriptor
  · exact same_target ▸ .head _
  · rw [put_slot_of_ne same_target] at member
    exact .tail _ (held target made member same)

theorem HoldsOnlyAt.after {request : Call} {reply : request.Reply}
    (held : holdings.HoldsOnlyAt descriptors object)
    (unmade : holdings.made < (holdings.after (.answered request reply)).made →
      object.name? ≠ some holdings.fresh)
    (unduplicated : ∀ descriptor ∈ descriptors, request.duplicates descriptor = false) :
    (holdings.after (.answered request reply)).HoldsOnlyAt descriptors object := by
  have duplicated : ∀ source, (∀ descriptor ∈ descriptors, (source == descriptor) = false) →
      ∀ slot ∈ holdings.slot source, slot.object ≠ object := by
    intro source apart slot member same
    have within := held source slot member same
    simpa using apart source within
  cases request with
  | pipe =>
    rcases reply with errno | ⟨readEnd, writeEnd⟩
    · exact held
    · have unmade := unmade (Nat.lt_succ_self _)
      have read_put : (holdings.put readEnd (some ⟨.readEnd holdings.fresh, true⟩)).HoldsOnlyAt
          descriptors object := held.put (by rintro _ ⟨⟩ rfl; exact unmade rfl)
      have both_put : ((holdings.put readEnd (some ⟨.readEnd holdings.fresh, true⟩)).put writeEnd
          (some ⟨.writeEnd holdings.fresh, true⟩)).HoldsOnlyAt descriptors object :=
        read_put.put (by rintro _ ⟨⟩ rfl; exact unmade rfl)
      exact both_put
  | openFile path mode =>
    rcases reply with errno | given
    · exact held
    · have unmade := unmade (Nat.lt_succ_self _)
      have one : (holdings.put given (some ⟨.file holdings.fresh, true⟩)).HoldsOnlyAt
          descriptors object := held.put (by rintro _ ⟨⟩ rfl; exact unmade rfl)
      exact one
  | duplicateTo source target =>
    rcases reply with errno | ⟨⟩
    · exact held
    · rw [after_duplicateTo]
      split
      · exact held
      · refine held.put fun made member => ?_
        obtain ⟨slot, holds, rfl⟩ := Option.map_eq_some_iff.1 member
        exact duplicated source unduplicated slot holds
  | duplicateFrom source least =>
    rcases reply with errno | copy
    · exact held
    · refine held.put fun made member => ?_
      obtain ⟨slot, holds, rfl⟩ := Option.map_eq_some_iff.1 member
      exact duplicated source unduplicated slot holds
  | close target => exact held.put nofun
  | _ => exact held

theorem HoldsOnlyAt.gone (held : holdings.HoldsOnlyAt [descriptor] object)
    (closed : holdings.slot descriptor = none) : holdings.HoldsOnlyAt [] object := by
  intro other slot member same
  obtain rfl := List.mem_singleton.1 (held other slot member same)
  rw [closed] at member
  cases member

/-! ## Who can make an object -/

/-- Neither the process nor a child that it forks from now on makes anything of this name. -/
structure Past (holdings : Holdings) (name : Name) : Prop where
  own : name.maker = holdings.lineage → name.number < holdings.made
  descendants : ∀ younger child, name.maker = younger ++ child :: holdings.lineage →
    child < holdings.forked

/-- Only the process, from now on, or a child that it forks from now on makes anything of this
name. -/
def Future (holdings : Holdings) (name : Name) : Prop :=
  (name.maker = holdings.lineage ∧ holdings.made ≤ name.number) ∨
    ∃ younger child, name.maker = younger ++ child :: holdings.lineage ∧ holdings.forked ≤ child

theorem forked_le_after (holdings : Holdings) (event : Event) :
    holdings.forked ≤ (holdings.after event).forked := by
  unfold after
  split <;> first | exact Nat.le_refl _ | exact Nat.le_succ _ | (split <;> exact Nat.le_refl _)

theorem forked_after_answered (request : Call) (reply : request.Reply) :
    (holdings.after (.answered request reply)).forked = holdings.forked := by
  unfold after
  split <;> first | rfl | (split <;> rfl) | contradiction

variable {name : Name}

theorem same_child {lineage younger younger' : List Nat} {child child' : Nat}
    (same : younger ++ child :: lineage = younger' ++ child' :: lineage) : child = child' := by
  have same : younger ++ [child] ++ lineage = younger' ++ [child'] ++ lineage := by simpa using same
  have last := congrArg List.getLast? (List.append_cancel_right same)
  simpa using last

theorem not_descendant {lineage younger : List Nat} {child : Nat} :
    lineage ≠ younger ++ child :: lineage := by
  intro same
  have length := congrArg List.length same
  simp at length
  omega

namespace Past

theorem after (past : holdings.Past name) (event : Event) : (holdings.after event).Past name := by
  have lineage_eq := lineage_after holdings event
  refine ⟨fun own => ?_, fun younger child descends => ?_⟩
  · rw [lineage_eq] at own
    exact Nat.lt_of_lt_of_le (past.own own) (made_le_after holdings event)
  · rw [lineage_eq] at descends
    exact Nat.lt_of_lt_of_le (past.descendants younger child descends)
      (forked_le_after holdings event)

theorem inChild (past : holdings.Past name) : holdings.inChild.Past name := by
  have unborn : ∀ younger, name.maker ≠ younger ++ holdings.forked :: holdings.lineage :=
    fun younger same => Nat.lt_irrefl _ (past.descendants younger _ same)
  refine ⟨fun own => absurd own (unborn []), fun younger child descends => ?_⟩
  refine absurd ?_ (unborn (younger ++ [child]))
  simpa [Holdings.inChild] using descends

theorem ne_fresh (past : holdings.Past name) : name ≠ holdings.fresh := by
  rintro rfl
  exact Nat.lt_irrefl _ (past.own rfl)

end Past

namespace Future

theorem of_after {event : Event} (future : (holdings.after event).Future name) :
    holdings.Future name := by
  have lineage_eq := lineage_after holdings event
  rcases future with ⟨own, later⟩ | ⟨younger, child, descends, later⟩
  · rw [lineage_eq] at own
    exact .inl ⟨own, Nat.le_trans (made_le_after holdings event) later⟩
  · rw [lineage_eq] at descends
    exact .inr ⟨younger, child, descends, Nat.le_trans (forked_le_after holdings event) later⟩

theorem of_afterAll {events : List Event} (future : (holdings.afterAll events).Future name) :
    holdings.Future name := by
  induction events generalizing holdings with
  | nil => exact future
  | cons event rest ih => exact (ih future).of_after

theorem ne_fresh {event : Event} (future : (holdings.after event).Future name)
    (makes : holdings.made < (holdings.after event).made) : name ≠ holdings.fresh := by
  rintro rfl
  have lineage_eq := lineage_after holdings event
  rcases future with ⟨-, later⟩ | ⟨younger, child, descends, -⟩
  · exact Nat.lt_irrefl _ (Nat.lt_of_lt_of_le makes later)
  · rw [lineage_eq] at descends
    exact not_descendant descends

theorem past_inChild {pid : Int} {child : List Event} {fate : Fate}
    (future : (holdings.after (.forked pid child fate)).Future name) :
    holdings.inChild.Past name := by
  have unborn : ∀ younger, name.maker ≠ younger ++ holdings.forked :: holdings.lineage := by
    rintro younger same
    rcases future with ⟨own, -⟩ | ⟨younger', child', descends, later⟩
    · exact not_descendant (own.symm.trans same)
    · have same_child := same_child (descends.symm.trans same)
      rw [same_child] at later
      exact Nat.lt_irrefl _ later
  refine ⟨fun own => absurd own (unborn []), fun younger child descends => ?_⟩
  refine absurd ?_ (unborn (younger ++ [child]))
  simpa [Holdings.inChild] using descends

end Future

theorem future_fresh (holdings : Holdings) : holdings.Future holdings.fresh :=
  .inl ⟨rfl, Nat.le_refl _⟩

theorem Future.of_inChild (future : holdings.inChild.Future name) : holdings.Future name := by
  rcases future with ⟨own, -⟩ | ⟨younger, child, descends, -⟩
  · exact .inr ⟨[], holdings.forked, own, Nat.le_refl _⟩
  · exact .inr ⟨younger ++ [child], holdings.forked, by simpa [inChild] using descends,
      Nat.le_refl _⟩

theorem Future.past_after {pid : Int} {child : List Event} {fate : Fate}
    (future : holdings.inChild.Future name) :
    (holdings.after (.forked pid child fate)).Past name := by
  obtain ⟨younger, descends⟩ :
      ∃ younger, name.maker = younger ++ holdings.forked :: holdings.lineage := by
    rcases future with ⟨own, -⟩ | ⟨younger, child, descends, -⟩
    · exact ⟨[], own⟩
    · exact ⟨younger ++ [child], by simpa [inChild] using descends⟩
  refine ⟨fun own => absurd (own.symm.trans descends) not_descendant,
    fun younger' child' descends' => ?_⟩
  rw [same_child (descends'.symm.trans descends)]
  exact Nat.lt_succ_self _

theorem Past.afterAll (past : holdings.Past name) (events : List Event) :
    (holdings.afterAll events).Past name := by
  induction events generalizing holdings with
  | nil => exact past
  | cons event rest ih => exact ih (past.after event)

theorem HoldsOnlyAt.of_past {event : Event} (held : holdings.HoldsOnlyAt descriptors object)
    (past : ∀ name ∈ object.name?, holdings.Past name)
    (unduplicated : ∀ request reply, event = .answered request reply →
      ∀ descriptor ∈ descriptors, request.duplicates descriptor = false) :
    (holdings.after event).HoldsOnlyAt descriptors object := by
  cases event with
  | forked pid child fate => exact held
  | answered request reply =>
    exact held.after (fun _ same => (past _ same).ne_fresh rfl) (unduplicated request reply rfl)

theorem HoldsOnlyAt.afterAll {events : List Event} (held : holdings.HoldsOnlyAt descriptors object)
    (past : ∀ name ∈ object.name?, holdings.Past name)
    (unduplicated : ∀ request reply, .answered request reply ∈ events →
      ∀ descriptor ∈ descriptors, request.duplicates descriptor = false) :
    (holdings.afterAll events).HoldsOnlyAt descriptors object := by
  induction events generalizing holdings with
  | nil => exact held
  | cons event rest ih =>
    refine ih (held.of_past past fun request reply same => ?_)
      (fun name named => (past name named).after event) fun request reply member => ?_
    · exact unduplicated request reply (same ▸ .head _)
    · exact unduplicated request reply (.tail _ member)

def piped (holdings : Holdings) (readEnd writeEnd : Descriptor) : Holdings :=
  holdings.after (.answered .pipe (.ok (readEnd, writeEnd)))

def Orderly (holdings : Holdings) : Prop :=
  ∀ object, ∀ name ∈ object.name?, holdings.Future name → holdings.HoldsOnlyAt [] object

namespace Orderly

theorem start (isOpen closes : Descriptor → Bool) : (Holdings.start isOpen closes).Orderly := by
  intro object name named _ descriptor slot member same
  simp only [Holdings.start] at member
  split at member <;> cases member
  subst same
  cases named

theorem inChild (orderly : holdings.Orderly) : holdings.inChild.Orderly :=
  fun object name named future => orderly object name named future.of_inChild

theorem after (orderly : holdings.Orderly) (event : Event) : (holdings.after event).Orderly := by
  intro object name named future
  have unheld := orderly object name named future.of_after
  cases event with
  | forked pid child fate => exact unheld
  | answered request reply =>
    refine unheld.after (fun makes same => ?_) nofun
    exact future.ne_fresh makes (Option.some.inj (named.symm.trans same))

theorem afterAll (orderly : holdings.Orderly) (events : List Event) :
    (holdings.afterAll events).Orderly := by
  induction events generalizing holdings with
  | nil => exact orderly
  | cons event rest ih => exact ih (orderly.after event)

theorem piped (orderly : holdings.Orderly) (readEnd writeEnd : Descriptor) :
    (holdings.piped readEnd writeEnd).HoldsOnlyAt [readEnd] (.readEnd holdings.fresh) ∧
      (holdings.piped readEnd writeEnd).HoldsOnlyAt [writeEnd] (.writeEnd holdings.fresh) ∧
      (holdings.piped readEnd writeEnd).Past holdings.fresh := by
  have fresh := holdings.future_fresh
  have no_read := orderly (.readEnd holdings.fresh) holdings.fresh rfl fresh
  have no_write := orderly (.writeEnd holdings.fresh) holdings.fresh rfl fresh
  have read_put := no_read.put_at readEnd (some ⟨.readEnd holdings.fresh, true⟩)
  have write_put : (holdings.put readEnd (some ⟨.readEnd holdings.fresh, true⟩)).HoldsOnlyAt []
      (.writeEnd holdings.fresh) := no_write.put (by rintro _ ⟨⟩ ⟨⟩)
  refine ⟨read_put.put (by rintro _ ⟨⟩ ⟨⟩), write_put.put_at writeEnd _,
    fun _ => Nat.lt_succ_self _, ?_⟩
  exact fun younger child descends => absurd descends not_descendant

end Orderly

end Holdings

open Holdings

/-! ## Who holds an object -/

variable {holdings : Holdings} {descriptors : List Descriptor} {object : Object}

def HeldOnlyAt (descriptors : List Descriptor) (object : Object) (processes : List Process) :
    Prop :=
  ∀ process ∈ processes, ∀ descriptor, process.holds descriptor = some object →
    descriptor ∈ descriptors

/-- No process holds the object but those with this lineage. -/
def HeldOnlyBy (lineage : List Nat) (object : Object) (processes : List Process) : Prop :=
  ∀ process ∈ processes, ∀ descriptor, process.holds descriptor = some object →
    process.lineage = lineage

theorem heldOnlyAt_append {first second : List Process} :
    HeldOnlyAt descriptors object (first ++ second) ↔
      HeldOnlyAt descriptors object first ∧ HeldOnlyAt descriptors object second :=
  List.forall_mem_append

theorem heldOnlyBy_append {lineage : List Nat} {first second : List Process} :
    HeldOnlyBy lineage object (first ++ second) ↔
      HeldOnlyBy lineage object first ∧ HeldOnlyBy lineage object second :=
  List.forall_mem_append

theorem HeldOnlyAt.heldOnlyBy {processes : List Process} (held : HeldOnlyAt [] object processes)
    (lineage : List Nat) : HeldOnlyBy lineage object processes :=
  fun process member descriptor holds => nomatch held process member descriptor holds

theorem Holdings.HoldsOnlyAt.remains (held : holdings.HoldsOnlyAt descriptors object)
    (fate : Fate) : HeldOnlyAt descriptors object (holdings.remains fate) := by
  intro process member descriptor holds
  cases fate with
  | exited | killed => cases member
  | pending =>
    obtain rfl := List.mem_singleton.1 member
    obtain ⟨slot, open_, rfl⟩ := Option.map_eq_some_iff.1 holds
    exact held descriptor slot open_ rfl
  | replaced =>
    obtain rfl := List.mem_singleton.1 member
    obtain ⟨slot, open_, left⟩ := Option.bind_eq_some_iff.1 holds
    split at left <;> cases left
    exact held descriptor slot open_ rfl

def Unduplicated (descriptor : Descriptor) (events : List Event) : Prop :=
  ∀ request reply, .answered request reply ∈ tree events → request.duplicates descriptor = false

mutual

theorem Event.heldOnlyAt (holdings : Holdings) (event : Event)
    (held : holdings.HoldsOnlyAt descriptors object)
    (past : ∀ name ∈ object.name?, holdings.Past name)
    (unduplicated : ∀ descriptor ∈ descriptors, Unduplicated descriptor [event]) :
    HeldOnlyAt descriptors object (event.census holdings) := by
  cases event with
  | answered request reply => exact nofun
  | forked pid child fate =>
    refine heldOnlyAt_census holdings.inChild child fate held
      (fun name named => (past name named).inChild) ?_
    intro descriptor member request reply at_child
    exact unduplicated descriptor member request reply (by simp [at_child])

theorem heldOnlyAt_census (holdings : Holdings) (events : List Event) (fate : Fate)
    (held : holdings.HoldsOnlyAt descriptors object)
    (past : ∀ name ∈ object.name?, holdings.Past name)
    (unduplicated : ∀ descriptor ∈ descriptors, Unduplicated descriptor events) :
    HeldOnlyAt descriptors object (census holdings events fate) := by
  cases events with
  | nil =>
    rw [census_nil]
    exact held.remains fate
  | cons event rest =>
    -- What is held after the event is no more, neither by the process nor by a child of the event.
    rw [census]
    have held_after : (holdings.after event).HoldsOnlyAt descriptors object := by
      refine held.of_past past fun request reply same descriptor member => ?_
      subst same
      exact unduplicated descriptor member request reply (by simp)
    refine heldOnlyAt_append.2 ⟨event.heldOnlyAt holdings held past ?_,
      heldOnlyAt_census (holdings.after event) rest fate held_after
        (fun name named => (past name named).after event) ?_⟩
    · intro descriptor member request reply at_event
      exact unduplicated descriptor member request reply
        (by simpa [tree] using Or.inl (by simpa [tree] using at_event))
    · intro descriptor member request reply later
      exact unduplicated descriptor member request reply (by simp [tree, later])

end

theorem census_of_past (events : List Event) (fate : Fate) (gone : holdings.HoldsOnlyAt [] object)
    (past : ∀ name ∈ object.name?, holdings.Past name) :
    HeldOnlyAt [] object (census holdings events fate) :=
  heldOnlyAt_census holdings events fate gone past nofun

theorem offspring_of_future {events : List Event} {name : Name} (orderly : holdings.Orderly)
    (named : name ∈ object.name?) (future : (holdings.afterAll events).Future name) :
    HeldOnlyAt [] object (offspring holdings events) := by
  induction events generalizing holdings with
  | nil => exact nofun
  | cons event rest ih =>
    refine heldOnlyAt_append.2 ⟨?_, ih (orderly.after event) future⟩
    cases event with
    | answered request reply => exact nofun
    | forked pid child fate =>
      have future := @Future.of_afterAll (holdings.after (.forked pid child fate)) name rest future
      have past : ∀ other ∈ object.name?, holdings.inChild.Past other := by
        intro other named'
        obtain rfl := Option.some.inj (named.symm.trans named')
        exact future.past_inChild
      exact census_of_past child fate (orderly object name named future.of_after) past

theorem HeldOnlyBy.of_child {lineage : List Nat} {before child after : List Event} {pid : Int}
    {fate end_ : Fate} {name : Name} (orderly : holdings.Orderly) (named : name ∈ object.name?)
    (future : (holdings.afterAll before).inChild.Future name)
    (held : HeldOnlyBy lineage object (census (holdings.afterAll before).inChild child fate)) :
    HeldOnlyBy lineage object
      (census holdings (before ++ .forked pid child fate :: after) end_) := by
  have unheld : ((holdings.afterAll before).after (.forked pid child fate)).HoldsOnlyAt []
      object := orderly.afterAll before object name named future.of_inChild
  have earlier := offspring_of_future orderly named future.of_inChild
  have past : ∀ other ∈ object.name?,
      ((holdings.afterAll before).after (.forked pid child fate)).Past other := by
    intro other named'
    obtain rfl := Option.some.inj (named.symm.trans named')
    exact future.past_after
  have later := census_of_past after end_ unheld past
  rw [census_append, census_forked]
  exact heldOnlyBy_append.2 ⟨earlier.heldOnlyBy _,
    heldOnlyBy_append.2 ⟨held, later.heldOnlyBy _⟩⟩

end PipelineShell
