import PipelineShell.Proofs.System.Law

/-!
# Which objects a process holds

`Holdings` tells apart the pipes and files that are made in a run, which a `Table` does not, and
knows which descriptors an `exec` closes. `images` lists the programs that a process and its
descendants become, each with what it holds then.
-/

namespace PipelineShell

/-- A pipe or a file that was opened in a run: which process made it, and how many that process had
made before. The process that is followed is `[]`, and the child that `p` forks after `k` others is
`k :: p`. -/
structure Name where
  maker : List Nat
  number : Nat
deriving DecidableEq

inductive Object
  | original (descriptor : Descriptor)
  | readEnd (pipe : Name)
  | writeEnd (pipe : Name)
  | file (name : Name)
deriving DecidableEq

def Object.target : Object → Target
  | original descriptor => .original descriptor
  | readEnd _ | writeEnd _ | file _ => .newer

structure Slot where
  object : Object
  closesOnExec : Bool
deriving DecidableEq

structure Holdings where
  slot : Descriptor → Option Slot
  lineage : List Nat := []
  made : Nat := 0
  forked : Nat := 0

namespace Holdings

/-- At the start, where these descriptors are open, and an `exec` closes those of them. -/
def start (isOpen closes : Descriptor → Bool) : Holdings where
  slot descriptor :=
    if isOpen descriptor then some ⟨.original descriptor, closes descriptor⟩ else none

def fresh (holdings : Holdings) : Name := ⟨holdings.lineage, holdings.made⟩

def put (holdings : Holdings) (descriptor : Descriptor) (slot : Option Slot) : Holdings :=
  { holdings with slot := Function.update holdings.slot descriptor slot }

def duplicate (holdings : Holdings) (source target : Descriptor) (closesOnExec : Bool) : Holdings :=
  holdings.put target ((holdings.slot source).map fun slot => ⟨slot.object, closesOnExec⟩)

def after (holdings : Holdings) : Event → Holdings
  | .answered .pipe (.ok (readEnd, writeEnd)) =>
    let holdings' := holdings.put readEnd (some ⟨.readEnd holdings.fresh, true⟩)
    { holdings'.put writeEnd (some ⟨.writeEnd holdings.fresh, true⟩) with made := holdings.made + 1 }
  | .answered (.openFile ..) (.ok descriptor) =>
    { holdings.put descriptor (some ⟨.file holdings.fresh, true⟩) with made := holdings.made + 1 }
  | .answered (.duplicateTo source target) (.ok ()) =>
    if source = target then holdings else holdings.duplicate source target false
  | .answered (.duplicateFrom source _) (.ok copy) => holdings.duplicate source copy true
  | .answered (.close descriptor) _ => holdings.put descriptor none
  | .forked .. => { holdings with forked := holdings.forked + 1 }
  | _ => holdings

def afterAll (holdings : Holdings) (events : List Event) : Holdings := events.foldl after holdings

def inChild (holdings : Holdings) : Holdings :=
  ⟨holdings.slot, holdings.forked :: holdings.lineage, 0, 0⟩

def atExec (holdings : Holdings) (descriptor : Descriptor) : Option Object :=
  (holdings.slot descriptor).bind fun slot => if slot.closesOnExec then none else some slot.object

def table (holdings : Holdings) : Table := fun descriptor =>
  ((holdings.slot descriptor).map (·.object.target)).getD .nothing

variable {holdings : Holdings} {descriptor : Descriptor}

@[simp] theorem afterAll_nil (holdings : Holdings) : holdings.afterAll [] = holdings := rfl

@[simp] theorem afterAll_cons (holdings : Holdings) (event : Event) (rest : List Event) :
    holdings.afterAll (event :: rest) = (holdings.after event).afterAll rest := rfl

@[simp] theorem afterAll_append (holdings : Holdings) (first second : List Event) :
    holdings.afterAll (first ++ second) = (holdings.afterAll first).afterAll second :=
  List.foldl_append

theorem after_duplicateTo (source target : Descriptor) :
    holdings.after (.answered (.duplicateTo source target) (.ok ())) =
      if source = target then holdings else holdings.duplicate source target false := rfl

theorem put_slot_self (slot : Option Slot) : (holdings.put descriptor slot).slot descriptor = slot :=
  Function.update_self ..

theorem put_slot_of_ne {other : Descriptor} (apart : other ≠ descriptor) (slot : Option Slot) :
    (holdings.put descriptor slot).slot other = holdings.slot other :=
  Function.update_of_ne apart ..

theorem table_put (slot : Option Slot) :
    (holdings.put descriptor slot).table =
      Function.update holdings.table descriptor ((slot.map (·.object.target)).getD .nothing) := by
  funext other
  by_cases same : other = descriptor
  · subst same
    rw [table, put_slot_self, Function.update_self]
  · rw [table, put_slot_of_ne same, Function.update_of_ne same, table]

theorem table_duplicate (source target : Descriptor) (closesOnExec : Bool) :
    (holdings.duplicate source target closesOnExec).table =
      Function.update holdings.table target (holdings.table source) := by
  rw [duplicate, table_put]
  congr 1
  rw [table, Option.map_map]
  rfl

theorem table_start (isOpen closes : Descriptor → Bool) :
    (start isOpen closes).table = Table.start isOpen := by
  funext descriptor
  cases isOpen : isOpen descriptor <;> simp [table, start, Table.start, isOpen, Object.target]

theorem table_after (holdings : Holdings) (event : Event) :
    (holdings.after event).table = holdings.table.after event := by
  cases event with
  | forked pid child fate => rfl
  | answered request reply =>
    cases request with
    | pipe =>
      rcases reply with errno | ⟨readEnd, writeEnd⟩
      · rfl
      · calc _ = ((holdings.put readEnd (some ⟨.readEnd holdings.fresh, true⟩)).put writeEnd
              (some ⟨.writeEnd holdings.fresh, true⟩)).table := rfl
          _ = _ := by rw [table_put, table_put]; rfl
    | openFile path mode =>
      rcases reply with errno | given
      · rfl
      · exact @table_put holdings ..
    | duplicateTo source target =>
      rcases reply with errno | ⟨⟩
      · rfl
      · rw [after_duplicateTo]
        by_cases same : source = target
        · subst same
          simp [Table.after]
        · rw [if_neg same]
          exact table_duplicate source target false
    | duplicateFrom source least =>
      rcases reply with errno | copy
      · rfl
      · exact table_duplicate source copy true
    | close target => exact @table_put holdings ..
    | _ => rfl

theorem table_afterAll (holdings : Holdings) (events : List Event) :
    (holdings.afterAll events).table = holdings.table.afterAll events := by
  induction events generalizing holdings with
  | nil => rfl
  | cons event rest ih => rw [afterAll_cons, ih, table_after, Table.afterAll_cons]

theorem isOpen_iff : holdings.table descriptor ≠ .nothing ↔ holdings.slot descriptor ≠ none := by
  unfold table
  cases holdings.slot descriptor with
  | none => simp
  | some slot => cases object : slot.object <;> simp [object, Object.target]

theorem slot_after {request : Call} {reply : request.Reply}
    (unbound : request.rebinds descriptor = false) (ungiven : descriptor ∉ request.gains reply) :
    (holdings.after (.answered request reply)).slot descriptor = holdings.slot descriptor := by
  cases request with
  | pipe =>
    rcases reply with errno | ⟨readEnd, writeEnd⟩
    · rfl
    · simp only [Call.gains, List.mem_cons, List.not_mem_nil, or_false, not_or] at ungiven
      exact (put_slot_of_ne ungiven.2 _).trans (put_slot_of_ne ungiven.1 _)
  | openFile path mode =>
    rcases reply with errno | given
    · rfl
    · exact put_slot_of_ne (by simpa [Call.gains] using ungiven) _
  | duplicateFrom source least =>
    rcases reply with errno | copy
    · rfl
    · exact put_slot_of_ne (by simpa [Call.gains] using ungiven) _
  | duplicateTo source target =>
    have apart : target ≠ descriptor := by simpa [Call.rebinds] using unbound
    rcases reply with errno | ⟨⟩
    · rfl
    · rw [after_duplicateTo]
      split
      · rfl
      · exact put_slot_of_ne apart.symm _
  | close target =>
    have apart : target ≠ descriptor := by simpa [Call.rebinds] using unbound
    exact put_slot_of_ne apart.symm _
  | _ => rfl

theorem slot_afterAll {events : List Event} (unbound : Unbound descriptor events)
    (holdings : Holdings) : (holdings.afterAll events).slot descriptor = holdings.slot descriptor := by
  induction events generalizing holdings with
  | nil => rfl
  | cons event rest ih =>
    have others : Unbound descriptor rest := fun request reply member =>
      unbound request reply (.tail _ member)
    rw [afterAll_cons, ih others]
    cases event with
    | answered request reply =>
      obtain ⟨not_rebound, ungiven⟩ := unbound request reply (.head _)
      exact slot_after not_rebound ungiven
    | forked pid child fate => rfl

theorem lineage_after (holdings : Holdings) (event : Event) :
    (holdings.after event).lineage = holdings.lineage := by
  unfold after
  split <;> first | rfl | (split <;> rfl)

theorem made_le_after (holdings : Holdings) (event : Event) :
    holdings.made ≤ (holdings.after event).made := by
  unfold after
  split <;> first | exact Nat.le_refl _ | exact Nat.le_succ _ | (split <;> exact Nat.le_refl _)

theorem lineage_afterAll (holdings : Holdings) (events : List Event) :
    (holdings.afterAll events).lineage = holdings.lineage := by
  induction events generalizing holdings with
  | nil => rfl
  | cons event rest ih => rw [afterAll_cons, ih, lineage_after]

theorem made_le_afterAll (holdings : Holdings) (events : List Event) :
    holdings.made ≤ (holdings.afterAll events).made := by
  induction events generalizing holdings with
  | nil => exact Nat.le_refl _
  | cons event rest ih => exact Nat.le_trans (made_le_after holdings event) (ih _)

def Sealed (holdings : Holdings) (descriptor : Descriptor) : Prop :=
  ∀ object, holdings.atExec descriptor = some object → ∃ other, object = .original other

def Unconnected (descriptor : Descriptor) (events : List Event) : Prop :=
  ∀ source reply, .answered (.duplicateTo source descriptor) reply ∉ events

theorem sealed_put {target : Descriptor} {slot : Option Slot} (isSealed : holdings.Sealed descriptor)
    (closes : ∀ made ∈ slot, made.closesOnExec = true) :
    (holdings.put target slot).Sealed descriptor := by
  intro object held
  by_cases same : descriptor = target
  · subst same
    rw [atExec, put_slot_self] at held
    cases slot with
    | none => cases held
    | some made => simp [closes made rfl] at held
  · rw [atExec, put_slot_of_ne same] at held
    exact isSealed object held

theorem sealed_after (isSealed : holdings.Sealed descriptor) (event : Event)
    (unconnected : ∀ source reply, event ≠ .answered (.duplicateTo source descriptor) reply) :
    (holdings.after event).Sealed descriptor := by
  have closing : ∀ object, ∀ made ∈ some (Slot.mk object true), made.closesOnExec = true := by
    rintro object _ ⟨⟩
    rfl
  cases event with
  | forked pid child fate => exact isSealed
  | answered request reply =>
    cases request with
    | pipe =>
      rcases reply with errno | ⟨readEnd, writeEnd⟩
      · exact isSealed
      · exact sealed_put (sealed_put isSealed (closing _)) (closing _)
    | openFile path mode =>
      rcases reply with errno | given
      · exact isSealed
      · exact sealed_put isSealed (closing _)
    | duplicateTo source target =>
      have apart : descriptor ≠ target := by
        rintro rfl
        exact unconnected source reply rfl
      rcases reply with errno | ⟨⟩
      · exact isSealed
      · intro object held
        rw [after_duplicateTo] at held
        split at held
        · exact isSealed object held
        · rw [atExec, duplicate, put_slot_of_ne apart] at held
          exact isSealed object held
    | duplicateFrom source least =>
      rcases reply with errno | copy
      · exact isSealed
      · refine sealed_put isSealed fun made member => ?_
        obtain ⟨_, _, rfl⟩ := Option.map_eq_some_iff.1 member
        rfl
    | close target => exact sealed_put isSealed nofun
    | _ => exact isSealed

theorem sealed_afterAll {events : List Event} (isSealed : holdings.Sealed descriptor)
    (unconnected : Unconnected descriptor events) :
    (holdings.afterAll events).Sealed descriptor := by
  induction events generalizing holdings with
  | nil => exact isSealed
  | cons event rest ih =>
    refine ih (sealed_after isSealed event ?_) ?_
    · rintro source reply rfl
      exact unconnected source reply (.head _)
    · exact fun source reply member => unconnected source reply (.tail _ member)

theorem sealed_start (isOpen closes : Descriptor → Bool) (descriptor : Descriptor) :
    (start isOpen closes).Sealed descriptor := by
  intro object held
  simp only [atExec, start] at held
  split at held
  · simp only [Option.bind_some] at held
    split at held <;> cases held
    exact ⟨descriptor, rfl⟩
  · cases held

end Holdings

theorem Only.unconnected {allowed : Call → Prop} {events : List Event} {descriptor : Descriptor}
    (only : Only allowed events) (h : ∀ source, ¬ allowed (.duplicateTo source descriptor)) :
    Holdings.Unconnected descriptor events :=
  fun source _ member => h source (only.of_mem member)

structure Image where
  program : String
  arguments : List String
  holds : Descriptor → Option Object

namespace Holdings

def becomes (holdings : Holdings) : Fate → List Image
  | .replaced program arguments => [⟨program, arguments, holdings.atExec⟩]
  | .exited _ | .killed _ | .pending => []

end Holdings

mutual
def Event.images (holdings : Holdings) : Event → List Image
  | .answered .. => []
  | .forked _ child fate => images holdings.inChild child fate

/-- The programs that a process and its descendants become, those of a child in the place of its
fork. -/
def images (holdings : Holdings) : List Event → Fate → List Image
  | [], fate => holdings.becomes fate
  | event :: rest, fate => event.images holdings ++ images (holdings.after event) rest fate
end

section

variable {holdings : Holdings}

@[simp] theorem images_nil (fate : Fate) : images holdings [] fate = holdings.becomes fate := by
  rw [images]

@[simp] theorem images_answered (request : Call) (reply : request.Reply) (rest : List Event)
    (fate : Fate) : images holdings (.answered request reply :: rest) fate =
      images (holdings.after (.answered request reply)) rest fate := by
  rw [images, Event.images, List.nil_append]

@[simp] theorem images_forked (pid : Int) (child rest : List Event) (end_ fate : Fate) :
    images holdings (.forked pid child end_ :: rest) fate =
      images holdings.inChild child end_ ++
        images (holdings.after (.forked pid child end_)) rest fate := by
  rw [images, Event.images]

theorem images_append (first second : List Event) (fate : Fate) :
    images holdings (first ++ second) fate =
      images holdings first .pending ++ images (holdings.afterAll first) second fate := by
  induction first generalizing holdings with
  | nil => simp [Holdings.becomes]
  | cons event first ih => cases event <;> simp [ih]

theorem Only.images_eq {allowed : Call → Prop} {events : List Event} (only : Only allowed events)
    (fate : Fate) : images holdings events fate = (holdings.afterAll events).becomes fate := by
  induction events generalizing holdings with
  | nil => exact images_nil fate
  | cons event rest ih =>
    cases event with
    | answered request reply => rw [images_answered, ih (only_answered.1 only).2]; rfl
    | forked pid child fate => exact absurd only not_only_forked

end

end PipelineShell
