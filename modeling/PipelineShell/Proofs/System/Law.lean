import PipelineShell.Proofs.System.Descriptors

/-!
# What the system promises

`Lawful` states the promises of the system that its replies keep in a run, for the process and for
all its descendants:

* a descriptor that a call gives was free;
* a pipe that a process makes for a child to report over delivers what the child writes. The reader
  sees the end only when the writer has closed its end or given it up with an `exec` or its exit,
  and then the pipe has taken and delivered everything.

`Action.Avoids`, `Action.Spares` and `Action.Ignores` are the frame rules that the first promise
gives, the first for a process with all its descendants and the others for a process alone.
-/

namespace PipelineShell

/-! ## Reporting over a pipe -/

def sent (descriptor : Descriptor) : List Event → List UInt8
  | [] => []
  | .answered (.write target data) (.ok count) :: rest =>
    if target = descriptor then data.data.toList.take count ++ sent descriptor rest
    else sent descriptor rest
  | _ :: rest => sent descriptor rest

inductive OnlyReports (descriptor : Descriptor) : List Event → Prop
  | nil : OnlyReports descriptor []
  | other {request : Call} {reply : request.Reply} {rest : List Event}
    (unnamed : request.names descriptor = false) (others : OnlyReports descriptor rest) :
    OnlyReports descriptor (.answered request reply :: rest)
  | write {data : ByteArray} {reply : Except Errno Nat} {rest : List Event}
    (others : OnlyReports descriptor rest) :
    OnlyReports descriptor (.answered (.write descriptor data) reply :: rest)
  | close {reply : Except Errno Unit} {rest : List Event} (others : Untouched descriptor rest) :
    OnlyReports descriptor (.answered (.close descriptor) reply :: rest)
  | forked {pid : Int} {child rest : List Event} {fate : Fate}
    (inChild : Untouched descriptor child) (others : OnlyReports descriptor rest) :
    OnlyReports descriptor (.forked pid child fate :: rest)

def Accepts (descriptor : Descriptor) (events : List Event) : Prop :=
  ∀ data reply, .answered (.write descriptor data) reply ∈ events → 0 < data.size →
    (∃ count, reply = .ok count ∧ 0 < count ∧ count ≤ data.size) ∨ reply = .error .interrupted

def Finished (descriptor : Descriptor) (events : List Event) (fate : Fate) : Prop :=
  (fate ≠ .pending ∨ ∃ reply, .answered (.close descriptor) reply ∈ events) ∧
    Accepts descriptor events

/-- The reads of a descriptor that come next give these data in order, and the end of the input
only after all of them and when the writer is finished. -/
def Delivers (descriptor : Descriptor) (finished : Prop) : List UInt8 → List Event → Prop
  | data, .answered (.read source count) (.ok bytes) :: rest =>
    source = descriptor → ∃ left, data = bytes.data.toList ++ left ∧
      (bytes.size = 0 → 0 < count → left = [] ∧ finished) ∧ Delivers descriptor finished left rest
  | data, .answered (.read source _) (.error errno) :: rest =>
    source = descriptor → errno = .interrupted ∧ Delivers descriptor finished data rest
  | _, _ => True

/-- A process makes a pipe and forks a child, and each of the two closes the end that it has no use
for. -/
def ReportsArrive (events : List Event) : Prop :=
  ∀ readEnd writeEnd pid child fate closed after,
    events = .answered .pipe (.ok (readEnd, writeEnd)) :: .forked pid child fate ::
      .answered (.close writeEnd) closed :: after →
    (∀ first ∈ child.head?, ∃ reply, first = .answered (.close readEnd) reply) →
    OnlyReports writeEnd child →
    Delivers readEnd (Finished writeEnd child fate) (sent writeEnd child) after

section

variable {descriptor : Descriptor} {events first second : List Event}

theorem Accepts.of_cons {event : Event} (accepts : Accepts descriptor (event :: events)) :
    Accepts descriptor events :=
  fun data reply member => accepts data reply (List.mem_cons_of_mem _ member)

theorem Accepts.of_append_left (accepts : Accepts descriptor (first ++ second)) :
    Accepts descriptor first :=
  fun data reply member => accepts data reply (List.mem_append_left _ member)

theorem Accepts.of_append_right (accepts : Accepts descriptor (first ++ second)) :
    Accepts descriptor second :=
  fun data reply member => accepts data reply (List.mem_append_right _ member)

theorem sent_append (first second : List Event) :
    sent descriptor (first ++ second) = sent descriptor first ++ sent descriptor second := by
  induction first with
  | nil => rfl
  | cons event first ih =>
    rw [List.cons_append, sent.eq_def descriptor (event :: first), sent.eq_def]
    split <;> simp_all
    split <;> simp

/-! Events that leave a descriptor alone do not count. -/

theorem sent_of_untouched (untouched : Untouched descriptor events) :
    sent descriptor events = [] := by
  induction events with
  | nil => rfl
  | cons event events ih =>
    cases event with
    | forked pid child fate => exact ih (untouched_forked.1 untouched).2
    | answered request reply =>
      obtain ⟨unnamed, others⟩ := untouched_answered.1 untouched
      cases request with
      | write target data =>
        have other : target ≠ descriptor := by simpa [Call.names] using unnamed
        rcases reply with errno | count <;> simp [sent, other, ih others]
      | _ => exact ih others

theorem OnlyReports.of_untouched (untouched : Untouched descriptor first)
    (reports : OnlyReports descriptor second) : OnlyReports descriptor (first ++ second) := by
  induction first with
  | nil => exact reports
  | cons event first ih =>
    cases event with
    | forked pid child fate =>
      obtain ⟨inChild, others⟩ := untouched_forked.1 untouched
      exact .forked inChild (ih others)
    | answered request reply =>
      obtain ⟨unnamed, others⟩ := untouched_answered.1 untouched
      exact .other unnamed (ih others)

theorem not_closed_of_untouched (untouched : Untouched descriptor events)
    {reply : Except Errno Unit} : .answered (.close descriptor) reply ∉ events := by
  intro member
  have unnamed := untouched _ _ (mem_tree member)
  simp [Call.names] at unnamed

theorem Finished.of_untouched {fate : Fate} (untouched : Untouched descriptor first)
    (finished : Finished descriptor (first ++ second) fate) :
    Finished descriptor second fate := by
  refine ⟨finished.1.imp_right fun ⟨reply, member⟩ => ?_, finished.2.of_append_right⟩
  exact ⟨reply, (List.mem_append.1 member).resolve_left (not_closed_of_untouched untouched)⟩

end

/-! ## The promises -/

mutual
def Event.Lawful (table : Table) : Event → Prop
  | .answered request reply =>
    (request.gains reply).Nodup ∧
      ∀ given ∈ request.gains reply, table given = .nothing ∧ request.leastGain ≤ given
  | .forked _ child _ => Lawful table child

def Lawful (table : Table) : List Event → Prop
  | [] => True
  | event :: rest =>
    event.Lawful table ∧ ReportsArrive (event :: rest) ∧ Lawful (table.after event) rest
end

/-! ## Parts of lawful runs -/

theorem Delivers.of_append {descriptor : Descriptor} {finished : Prop} {data : List UInt8}
    {first second : List Event} (delivers : Delivers descriptor finished data (first ++ second)) :
    Delivers descriptor finished data first := by
  induction first generalizing data with
  | nil => trivial
  | cons event first ih =>
    cases event with
    | forked pid child fate => trivial
    | answered request reply =>
      cases request with
      | read source count =>
        cases reply with
        | error errno =>
          intro same
          obtain ⟨interrupted, delivers⟩ := delivers same
          exact ⟨interrupted, ih delivers⟩
        | ok bytes =>
          intro same
          obtain ⟨left, split, finish, delivers⟩ := delivers same
          exact ⟨left, split, finish, ih delivers⟩
      | _ => trivial

theorem ReportsArrive.of_append {first second : List Event}
    (arrive : ReportsArrive (first ++ second)) : ReportsArrive first := by
  rintro readEnd writeEnd pid child fate closed after rfl closesFirst reports
  exact (arrive readEnd writeEnd pid child fate closed (after ++ second) rfl closesFirst
    reports).of_append

theorem Lawful.append {table : Table} {first second : List Event}
    (lawful : Lawful table (first ++ second)) :
    Lawful table first ∧ Lawful (table.afterAll first) second := by
  induction first generalizing table with
  | nil => exact ⟨trivial, lawful⟩
  | cons event first ih =>
    obtain ⟨lawful_event, arrive, lawful⟩ := lawful
    exact ⟨⟨lawful_event, arrive.of_append, (ih lawful).1⟩, (ih lawful).2⟩

theorem Event.Lawful.not_mem_gains {table : Table} {request : Call} {reply : request.Reply}
    (lawful : (Event.answered request reply).Lawful table) {descriptor : Descriptor}
    (isOpen : table descriptor ≠ .nothing) : descriptor ∉ request.gains reply :=
  fun member => isOpen (lawful.2 descriptor member).1

theorem Event.Lawful.pipe {table : Table} {readEnd writeEnd : Descriptor}
    (lawful : (Event.answered .pipe (.ok (readEnd, writeEnd))).Lawful table) :
    readEnd ≠ writeEnd ∧ table readEnd = .nothing ∧ table writeEnd = .nothing := by
  obtain ⟨nodup, free⟩ := lawful
  exact ⟨by simpa [Call.gains] using nodup, (free _ (by simp [Call.gains])).1,
    (free _ (by simp [Call.gains])).1⟩

theorem Table.ne_of_isOpen {table : Table} {descriptor other : Descriptor}
    (isOpen : table descriptor ≠ .nothing) (free : table other = .nothing) : descriptor ≠ other :=
  fun same => isOpen (same ▸ free)

theorem Event.Lawful.keeps_pipe {table : Table} {readEnd writeEnd : Descriptor}
    (lawful : (Event.answered .pipe (.ok (readEnd, writeEnd))).Lawful table) :
    table.Keeps (table.after (.answered .pipe (.ok (readEnd, writeEnd)))) :=
  fun _ isOpen => Table.after_apply rfl (lawful.not_mem_gains isOpen)

/-! ## Actions that leave a descriptor alone -/

/-- Neither the process nor a forked child names the descriptor, unless it is given to it, and what
the action returns satisfies `post`. -/
def Action.Avoids {α : Type} (descriptor : Descriptor) (post : α → Prop) : Action α → Prop
  | .done value => post value
  | .exhausted => True
  | .call request next =>
    request.names descriptor = false ∧
      ∀ reply, descriptor ∉ request.gains reply → (next reply).Avoids descriptor post

namespace Action

variable {α β : Type} {descriptor : Descriptor} {post : α → Prop} {post' : β → Prop}

theorem avoids_perform_bind {request : Call} {next : request.Reply → Action β}
    (unnamed : request.names descriptor = false)
    (h : ∀ reply, descriptor ∉ request.gains reply → (next reply).Avoids descriptor post') :
    (perform request >>= next).Avoids descriptor post' :=
  ⟨unnamed, h⟩

theorem Avoids.bind {action : Action α} {f : α → Action β} (h : action.Avoids descriptor post)
    (h' : ∀ value, post value → (f value).Avoids descriptor post') :
    (action >>= f).Avoids descriptor post' := by
  induction action with
  | done value => exact h' value h
  | exhausted => trivial
  | call request next ih => exact ⟨h.1, fun reply ungiven => ih reply (h.2 reply ungiven)⟩

end Action

theorem Runs.untouched {α : Type} {action : Action α} {descriptor : Descriptor} {post : α → Prop}
    {table : Table} {events : List Event} {outcome : Outcome α} (run : Runs action events outcome)
    (avoids : action.Avoids descriptor post) (lawful : Lawful table events)
    (isOpen : table descriptor ≠ .nothing) :
    Untouched descriptor events ∧ ∀ value, outcome = .value value → post value := by
  induction run generalizing table with
  | done value =>
    refine ⟨untouched_nil _, ?_⟩
    rintro _ ⟨⟩
    exact avoids
  | exhausted | pending | exit | die | exec | execFile => exact ⟨untouched_nil _, nofun⟩
  | call reply single rest ih =>
    have ungiven := lawful.1.not_mem_gains isOpen
    have same := @Table.after_apply table _ _ _ (Call.rebinds_of_names avoids.1) ungiven
    obtain ⟨untouched, returned⟩ := ih (avoids.2 reply ungiven) lawful.2.2 (same ▸ isOpen)
    exact ⟨untouched_answered.2 ⟨avoids.1, untouched⟩, returned⟩
  | fork pid inChild rest ih_child ih =>
    obtain ⟨lawful_child, -, lawful⟩ := lawful
    have untouched_child := (ih_child (avoids.2 _ nofun) lawful_child isOpen).1
    obtain ⟨untouched, returned⟩ := ih (avoids.2 _ nofun) lawful isOpen
    exact ⟨untouched_forked.2 ⟨untouched_child, untouched⟩, returned⟩

/-! ## Processes that leave a descriptor alone -/

namespace Action

variable {α β : Type} {descriptor : Descriptor} {post : α → Prop} {post' : β → Prop}

/-- The process itself neither rebinds nor closes the descriptor, unless it is given to it, and what
the action returns satisfies `post`. -/
def Spares {α : Type} (descriptor : Descriptor) (post : α → Prop) : Action α → Prop
  | .done value => post value
  | .exhausted => True
  | .call request next =>
    request.rebinds descriptor = false ∧
      ∀ reply, request.childReply? ≠ some reply → descriptor ∉ request.gains reply →
        (next reply).Spares descriptor post

theorem Avoids.spares {action : Action α} (avoids : action.Avoids descriptor post) :
    action.Spares descriptor post := by
  induction action with
  | done value => exact avoids
  | exhausted => trivial
  | call request next ih =>
    refine ⟨Call.rebinds_of_names avoids.1, ?_⟩
    intro reply _ ungiven
    exact ih reply (avoids.2 reply ungiven)

theorem Calls.spares {allowed : Call → Prop} {action : Action α} (calls : action.Calls allowed)
    (unbound : ∀ request, allowed request → request.rebinds descriptor = false) :
    action.Spares descriptor fun _ => True := by
  induction action with
  | done value => trivial
  | exhausted => trivial
  | call request next ih =>
    refine ⟨?_, fun reply _ _ => ih reply (calls reply).2⟩
    cases request with
    | duplicateTo | close => exact unbound _ (calls (.ok ())).1.1
    | _ => rfl

theorem Spares.bind {action : Action α} {f : α → Action β} (h : action.Spares descriptor post)
    (h' : ∀ value, post value → (f value).Spares descriptor post') :
    (action >>= f).Spares descriptor post' := by
  induction action with
  | done value => exact h' value h
  | exhausted => trivial
  | call request next ih =>
    refine ⟨h.1, ?_⟩
    intro reply other ungiven
    exact ih reply (h.2 reply other ungiven)

theorem spares_fork_bind {next : Except Errno Forked → Action α}
    (failed : ∀ errno, (next (.error errno)).Spares descriptor post)
    (inParent : ∀ pid, (next (.ok (.parent pid))).Spares descriptor post) :
    (perform .fork >>= next).Spares descriptor post := by
  refine ⟨rfl, ?_⟩
  intro reply other _
  rcases reply with errno | _ | pid
  · exact failed errno
  · exact absurd rfl other
  · exact inParent pid

end Action

/-! ## Processes that have no use of a descriptor -/

namespace Action

variable {α β : Type} {descriptor : Descriptor} {post : α → Prop} {post' : β → Prop}

def Ignores {α : Type} (descriptor : Descriptor) (post : α → Prop) : Action α → Prop
  | .done value => post value
  | .exhausted => True
  | .call request next =>
    request.names descriptor = false ∧
      ∀ reply, request.childReply? ≠ some reply → descriptor ∉ request.gains reply →
        (next reply).Ignores descriptor post

theorem Avoids.ignores {action : Action α} (avoids : action.Avoids descriptor post) :
    action.Ignores descriptor post := by
  induction action with
  | done value => exact avoids
  | exhausted => trivial
  | call request next ih =>
    exact ⟨avoids.1, fun reply _ ungiven => ih reply (avoids.2 reply ungiven)⟩

theorem Ignores.spares {action : Action α} (ignores : action.Ignores descriptor post) :
    action.Spares descriptor post := by
  induction action with
  | done value => exact ignores
  | exhausted => trivial
  | call request next ih =>
    refine ⟨Call.rebinds_of_names ignores.1, ?_⟩
    intro reply other ungiven
    exact ih reply (ignores.2 reply other ungiven)

theorem Ignores.bind {action : Action α} {f : α → Action β} (h : action.Ignores descriptor post)
    (h' : ∀ value, post value → (f value).Ignores descriptor post') :
    (action >>= f).Ignores descriptor post' := by
  induction action with
  | done value => exact h' value h
  | exhausted => trivial
  | call request next ih =>
    refine ⟨h.1, ?_⟩
    intro reply other ungiven
    exact ih reply (h.2 reply other ungiven)

theorem ignores_fork_bind {next : Except Errno Forked → Action α}
    (failed : ∀ errno, (next (.error errno)).Ignores descriptor post)
    (inParent : ∀ pid, (next (.ok (.parent pid))).Ignores descriptor post) :
    (perform .fork >>= next).Ignores descriptor post := by
  refine ⟨rfl, ?_⟩
  intro reply other _
  rcases reply with errno | _ | pid
  · exact failed errno
  · exact absurd rfl other
  · exact inParent pid

end Action

/-! ## Their runs -/

def Unbound (descriptor : Descriptor) (events : List Event) : Prop :=
  ∀ request reply, .answered request reply ∈ events →
    request.rebinds descriptor = false ∧ descriptor ∉ request.gains reply

@[simp] theorem unbound_nil (descriptor : Descriptor) : Unbound descriptor [] := by
  intro request reply member
  cases member

@[simp] theorem unbound_append {descriptor : Descriptor} {first second : List Event} :
    Unbound descriptor (first ++ second) ↔ Unbound descriptor first ∧ Unbound descriptor second := by
  constructor
  · intro unbound
    exact ⟨fun request reply member => unbound request reply (List.mem_append_left _ member),
      fun request reply member => unbound request reply (List.mem_append_right _ member)⟩
  · rintro ⟨unbound_first, unbound_second⟩ request reply member
    exact (List.mem_append.1 member).elim (unbound_first request reply)
      (unbound_second request reply)

theorem Only.unbound {allowed : Call → Prop} {events : List Event} {descriptor : Descriptor}
    (only : Only allowed events)
    (h : ∀ request, allowed request → request.rebinds descriptor = false ∧
      ∀ reply, request.gains reply = []) : Unbound descriptor events := by
  intro request reply member
  obtain ⟨unbound, ungiven⟩ := h request (only.of_mem member)
  exact ⟨unbound, by simp [ungiven reply]⟩

theorem Runs.spared {α : Type} {action : Action α} {descriptor : Descriptor} {post : α → Prop}
    {table : Table} {events : List Event} {outcome : Outcome α} (run : Runs action events outcome)
    (spares : action.Spares descriptor post) (lawful : Lawful table events)
    (isOpen : table descriptor ≠ .nothing) :
    Unbound descriptor events ∧ ∀ value, outcome = .value value → post value := by
  induction run generalizing table with
  | done value =>
    refine ⟨unbound_nil _, ?_⟩
    rintro _ ⟨⟩
    exact spares
  | exhausted | pending | exit | die | exec | execFile => exact ⟨unbound_nil _, nofun⟩
  | @call request next reply events outcome single rest ih =>
    have ungiven := lawful.1.not_mem_gains isOpen
    have same := @Table.after_apply table _ _ _ spares.1 ungiven
    obtain ⟨unbound, returned⟩ :=
      ih (spares.2 reply (Call.childReply?_ne single) ungiven) lawful.2.2 (same ▸ isOpen)
    refine ⟨?_, returned⟩
    intro other answer member
    rcases List.mem_cons.1 member with first | later
    · cases first
      exact ⟨spares.1, ungiven⟩
    · exact unbound other answer later
  | fork pid inChild rest ih_child ih =>
    obtain ⟨unbound, returned⟩ := ih (spares.2 _ nofun nofun) lawful.2.2 isOpen
    refine ⟨?_, returned⟩
    intro other answer member
    rcases List.mem_cons.1 member with first | later
    · cases first
    · exact unbound other answer later

theorem Runs.keeps {α : Type} {action : Action α} {descriptor : Descriptor} {post : α → Prop}
    {table : Table} {events : List Event} {outcome : Outcome α} (run : Runs action events outcome)
    (spares : action.Spares descriptor post) (lawful : Lawful table events)
    (isOpen : table descriptor ≠ .nothing) :
    table.afterAll events descriptor = table descriptor :=
  Table.afterAll_apply (run.spared spares lawful isOpen).1 table

theorem Runs.ignored {α : Type} {action : Action α} {descriptor : Descriptor} {post : α → Prop}
    {table : Table} {events : List Event} {outcome : Outcome α} (run : Runs action events outcome)
    (ignores : action.Ignores descriptor post) (lawful : Lawful table events)
    (isOpen : table descriptor ≠ .nothing) :
    ∀ request reply, .answered request reply ∈ events → request.names descriptor = false := by
  have unbound := (run.spared ignores.spares lawful isOpen).1
  clear lawful
  induction run with
  | done | exhausted | pending | exit | die | exec | execFile => exact nofun
  | @call request next reply events outcome single rest ih =>
    obtain ⟨-, ungiven⟩ := unbound request reply List.mem_cons_self
    have others := ih (ignores.2 reply (Call.childReply?_ne single) ungiven)
      fun other answer member => unbound other answer (List.mem_cons_of_mem _ member)
    intro other answer member
    rcases List.mem_cons.1 member with first | later
    · cases first
      exact ignores.1
    · exact others other answer later
  | fork pid inChild rest ih_child ih =>
    have others := ih (ignores.2 _ nofun nofun) fun other answer member =>
      unbound other answer (List.mem_cons_of_mem _ member)
    intro other answer member
    rcases List.mem_cons.1 member with first | later
    · cases first
    · exact others other answer later

end PipelineShell
