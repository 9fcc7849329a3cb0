import Mathlib.Logic.Function.Basic
import PipelineShell.Proofs.System.Trace

namespace PipelineShell

namespace Call

def names (descriptor : Descriptor) : Call → Bool
  | duplicateTo source target => source == descriptor || target == descriptor
  | duplicateFrom source _ => source == descriptor
  | close target | read target _ | write target _ | seek target .. | isTerminal target
  | descriptorInfo target => target == descriptor
  | print _ | flush => standardOutput == descriptor
  | _ => false

def rebinds (descriptor : Descriptor) : Call → Bool
  | duplicateTo _ target | close target => target == descriptor
  | _ => false

theorem rebinds_of_names {descriptor : Descriptor} {request : Call}
    (unnamed : request.names descriptor = false) : request.rebinds descriptor = false := by
  cases request with
  | duplicateTo source target => exact (Bool.or_eq_false_iff.1 unnamed).2
  | close target => exact unnamed
  | _ => rfl

def gains : (request : Call) → request.Reply → List Descriptor
  | pipe, .ok (readEnd, writeEnd) => [readEnd, writeEnd]
  | openFile .., .ok descriptor | duplicateFrom .., .ok descriptor => [descriptor]
  | _, _ => []

def leastGain : Call → Descriptor
  | duplicateFrom _ least => least
  | _ => 0

end Call

def Untouched (descriptor : Descriptor) (events : List Event) : Prop :=
  ∀ request reply, .answered request reply ∈ tree events → request.names descriptor = false

@[simp] theorem untouched_nil (descriptor : Descriptor) : Untouched descriptor [] :=
  fun _ _ member => absurd member List.not_mem_nil

@[simp] theorem untouched_append {descriptor : Descriptor} {first second : List Event} :
    Untouched descriptor (first ++ second) ↔
      Untouched descriptor first ∧ Untouched descriptor second := by
  simp [Untouched, or_imp, forall_and]

@[simp] theorem untouched_answered {descriptor : Descriptor} {request : Call}
    {reply : request.Reply} {rest : List Event} :
    Untouched descriptor (.answered request reply :: rest) ↔
      request.names descriptor = false ∧ Untouched descriptor rest := by
  constructor
  · intro h
    exact ⟨h request reply (by simp), fun other answer member => h other answer (by simp [member])⟩
  · rintro ⟨first, others⟩ other answer member
    rcases List.mem_cons.1 member with same | member
    · cases same
      exact first
    · exact others other answer member

@[simp] theorem untouched_forked {descriptor : Descriptor} {pid : Int} {child rest : List Event}
    {fate : Fate} :
    Untouched descriptor (.forked pid child fate :: rest) ↔
      Untouched descriptor child ∧ Untouched descriptor rest := by
  simp [Untouched, or_imp, forall_and]

theorem Only.untouched {allowed : Call → Prop} {events : List Event} {descriptor : Descriptor}
    (only : Only allowed events)
    (unnamed : ∀ request, allowed request → request.names descriptor = false) :
    Untouched descriptor events := by
  intro request reply member
  rw [only.tree_eq] at member
  exact unnamed request (only.of_mem member)

theorem IsClose.unnamed {descriptors : List Descriptor} {request : Call}
    (closing : IsClose descriptors request) {descriptor : Descriptor}
    (other : descriptor ∉ descriptors) : request.names descriptor = false := by
  obtain ⟨target, member, rfl⟩ := closing
  have apart : target ≠ descriptor := fun same => other (same ▸ member)
  simpa [Call.names] using apart

theorem IsClose.gains_eq {descriptors : List Descriptor} {request : Call}
    (closing : IsClose descriptors request) (reply : request.Reply) :
    request.gains reply = [] := by
  obtain ⟨target, -, rfl⟩ := closing
  rfl

inductive Target
  | nothing
  | original (descriptor : Descriptor)
  | newer
deriving DecidableEq

abbrev Table := Descriptor → Target

namespace Table

def start (isOpen : Descriptor → Bool) : Table := fun descriptor =>
  if isOpen descriptor then .original descriptor else .nothing

def after (table : Table) : Event → Table
  | .answered .pipe (.ok (readEnd, writeEnd)) =>
    Function.update (Function.update table readEnd .newer) writeEnd .newer
  | .answered (.openFile ..) (.ok descriptor) => Function.update table descriptor .newer
  | .answered (.duplicateTo source target) (.ok ()) => Function.update table target (table source)
  | .answered (.duplicateFrom source _) (.ok copy) => Function.update table copy (table source)
  | .answered (.close descriptor) _ => Function.update table descriptor .nothing
  | _ => table

def afterAll (table : Table) (events : List Event) : Table := events.foldl after table

@[simp] theorem afterAll_nil (table : Table) : table.afterAll [] = table := rfl

@[simp] theorem afterAll_cons (table : Table) (event : Event) (rest : List Event) :
    table.afterAll (event :: rest) = (table.after event).afterAll rest := rfl

@[simp] theorem afterAll_append (table : Table) (first second : List Event) :
    table.afterAll (first ++ second) = (table.afterAll first).afterAll second := by
  simp [afterAll]

theorem after_apply {table : Table} {request : Call} {reply : request.Reply}
    {descriptor : Descriptor} (unbound : request.rebinds descriptor = false)
    (ungiven : descriptor ∉ request.gains reply) :
    table.after (.answered request reply) descriptor = table descriptor := by
  cases request with
  | pipe =>
    rcases reply with errno | ⟨readEnd, writeEnd⟩
    · rfl
    · simp only [Call.gains, List.mem_cons, List.not_mem_nil, or_false, not_or] at ungiven
      simp [after, ungiven]
  | openFile path mode =>
    rcases reply with errno | given
    · rfl
    · simp only [Call.gains, List.mem_singleton] at ungiven
      simp [after, ungiven]
  | duplicateFrom source least =>
    rcases reply with errno | copy
    · rfl
    · simp only [Call.gains, List.mem_singleton] at ungiven
      simp [after, ungiven]
  | duplicateTo source target =>
    simp only [Call.rebinds, beq_eq_false_iff_ne] at unbound
    rcases reply with errno | _
    · rfl
    · simp [after, unbound.symm]
  | close target =>
    simp only [Call.rebinds, beq_eq_false_iff_ne] at unbound
    simp [after, unbound.symm]
  | _ => rfl

theorem afterAll_apply {events : List Event} {descriptor : Descriptor}
    (h : ∀ request reply, .answered request reply ∈ events →
      request.rebinds descriptor = false ∧ descriptor ∉ request.gains reply)
    (table : Table) : table.afterAll events descriptor = table descriptor := by
  induction events generalizing table with
  | nil => rfl
  | cons event rest ih =>
    have others := ih fun request reply member => h request reply (.tail _ member)
    cases event with
    | answered request reply =>
      obtain ⟨unbound, ungiven⟩ := h request reply (.head _)
      rw [afterAll_cons, others, after_apply unbound ungiven]
    | forked pid child fate => rw [afterAll_cons, others]; rfl

theorem afterAll_apply_of_only {allowed : Call → Prop} {events : List Event}
    (only : Only allowed events) {descriptor : Descriptor}
    (h : ∀ request, allowed request → request.rebinds descriptor = false ∧
      ∀ reply, request.gains reply = []) (table : Table) :
    table.afterAll events descriptor = table descriptor := by
  refine afterAll_apply (fun request reply member => ?_) table
  obtain ⟨unbound, ungiven⟩ := h request (only.of_mem member)
  exact ⟨unbound, by simp [ungiven reply]⟩

theorem afterAll_apply_of_closes {descriptors : List Descriptor} {events : List Event}
    (only : Only (IsClose descriptors) events) {descriptor : Descriptor}
    (other : descriptor ∉ descriptors) (table : Table) :
    table.afterAll events descriptor = table descriptor :=
  afterAll_apply_of_only only (fun _ closes =>
    ⟨Call.rebinds_of_names (closes.unnamed other), closes.gains_eq⟩) table

theorem after_pipe_writeEnd (table : Table) (readEnd writeEnd : Descriptor) :
    table.after (.answered .pipe (.ok (readEnd, writeEnd))) writeEnd = .newer := by
  simp [after]

theorem after_pipe_readEnd (table : Table) {readEnd writeEnd : Descriptor}
    (apart : readEnd ≠ writeEnd) :
    table.after (.answered .pipe (.ok (readEnd, writeEnd))) readEnd = .newer := by
  simp [after, apart]

def Keeps (first last : Table) : Prop := ∀ descriptor, first descriptor ≠ .nothing →
  last descriptor = first descriptor

namespace Keeps

variable {first second third : Table}

theorem refl (table : Table) : table.Keeps table := fun _ _ => rfl

theorem isOpen (keeps : first.Keeps second) {descriptor : Descriptor}
    (isOpen : first descriptor ≠ .nothing) : second descriptor ≠ .nothing :=
  keeps descriptor isOpen ▸ isOpen

theorem trans (keeps : first.Keeps second) (keeps' : second.Keeps third) : first.Keeps third :=
  fun descriptor isOpen =>
    (keeps' descriptor (keeps.isOpen isOpen)).trans (keeps descriptor isOpen)

end Keeps

end Table

end PipelineShell
