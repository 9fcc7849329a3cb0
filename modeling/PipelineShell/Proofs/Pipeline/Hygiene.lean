import PipelineShell.Proofs.Pipeline.Care
import PipelineShell.Proofs.Pipeline.Scheduling
import PipelineShell.Proofs.System.Census

namespace PipelineShell

open PipelineShell.Action

variable {α : Type} {events : List Event} {holdings : Holdings} {input output : Descriptor}
  {plan : ExecPlan} {stage : Stage} {scheduling : Scheduling} {flags : Flags}

def Call.DuplicatesNothing (request : Call) : Prop :=
  ∀ descriptor, request.duplicates descriptor = false

theorem Action.Calls.any {allowed : Call → Prop} {action : Action α}
    (calls : action.Calls allowed) : action.Calls fun _ => True :=
  calls.mono fun _ _ => trivial

theorem Only.any {allowed : Call → Prop} (only : Only allowed events) :
    Only (fun _ => True) events :=
  only.mono fun _ _ => trivial

theorem IsTidying.duplicatesNothing {ends : List Descriptor} {request : Call}
    (tidying : IsTidying ends request) : request.DuplicatesNothing := by
  rcases tidying with ⟨_, -, rfl⟩ | ⟨_, rfl⟩ <;> exact fun _ => rfl

theorem Call.duplicates_of_names {descriptor : Descriptor} {request : Call}
    (unnamed : request.names descriptor = false) : request.duplicates descriptor = false := by
  cases request with
  | duplicateTo source target => exact (Bool.or_eq_false_iff.1 unnamed).1
  | duplicateFrom source least => exact unnamed
  | _ => rfl

theorem Untouched.unduplicated {descriptor : Descriptor} (untouched : Untouched descriptor events) :
    Unduplicated descriptor events := fun request reply member =>
  Call.duplicates_of_names (untouched request reply member)

inductive ForksOnce : List Event → Prop
  | never {events : List Event} (modest : Only Call.DuplicatesNothing events) : ForksOnce events
  | once {first child rest : List Event} {pid : Int} {fate : Fate}
    (modest_first : Only Call.DuplicatesNothing first) (childless : Only (fun _ => True) child)
    (modest_rest : Only Call.DuplicatesNothing rest) :
    ForksOnce (first ++ .forked pid child fate :: rest)

namespace ForksOnce

theorem append (forks : ForksOnce events) {before after : List Event}
    (modest_before : Only Call.DuplicatesNothing before)
    (modest_after : Only Call.DuplicatesNothing after) :
    ForksOnce (before ++ (events ++ after)) := by
  cases forks with
  | never modest => exact .never (by simp [*])
  | once modest_first childless modest_rest =>
    have modest_first := only_append.2 ⟨modest_before, modest_first⟩
    have modest_rest := only_append.2 ⟨modest_rest, modest_after⟩
    simpa using ForksOnce.once modest_first childless modest_rest

theorem duplicatesNothing (forks : ForksOnce events) {request : Call} {reply : request.Reply}
    (member : .answered request reply ∈ events) : request.DuplicatesNothing := by
  cases forks with
  | never modest => exact modest.of_mem member
  | once modest_first childless modest_rest =>
    rcases List.mem_append.1 member with member | member
    · exact modest_first.of_mem member
    · rcases List.mem_cons.1 member with same | member
      · cases same
      · exact modest_rest.of_mem member

end ForksOnce

theorem Holdings.lineage_remains {fate : Fate} {process : Process}
    (member : process ∈ holdings.remains fate) : process.lineage = holdings.lineage := by
  cases fate with
  | exited | killed => cases member
  | pending | replaced =>
    obtain rfl := List.mem_singleton.1 member
    rfl

theorem Only.forked_afterAll {allowed : Call → Prop} (only : Only allowed events) :
    (holdings.afterAll events).forked = holdings.forked := by
  induction events generalizing holdings with
  | nil => rfl
  | cons event rest ih =>
    cases event with
    | forked pid child fate => exact absurd only not_only_forked
    | answered request reply =>
      rw [Holdings.afterAll_cons, ih (only_answered.1 only).2, Holdings.forked_after_answered]

theorem ForksOnce.lineage_eq (forks : ForksOnce events) {process : Process}
    (member : process ∈ offspring holdings events) :
    process.lineage = holdings.inChild.lineage := by
  cases forks with
  | never modest =>
    rw [modest.offspring_eq] at member
    cases member
  | @once first child rest pid fate modest_first childless modest_rest =>
    rw [offspring, census_append, modest_first.offspring_eq, List.nil_append, census_forked,
      childless.census_eq] at member
    rcases List.mem_append.1 member with member | member
    · rw [Holdings.lineage_remains member, Holdings.lineage_afterAll]
      show (holdings.afterAll first).forked :: (holdings.afterAll first).lineage = _
      rw [modest_first.forked_afterAll, Holdings.lineage_afterAll]
      rfl
    · rw [modest_rest.census_eq] at member
      cases member

theorem ExecPlan.calls_enter {channel : Channel} :
    (plan.enter channel input output : Action α).Calls fun _ => True := by
  have closes := (calls_closeAll [channel.watcher]).any
  have execs := (@calls_execWith input output plan).any
  refine closes.bind fun _ => execs.bind fun failure => ?_
  have reports := (Channel.calls_report channel.reporter failure.errno).any
  exact reports.bind fun _ => calls_exit _

theorem spawn_forksOnce {result : Except RunError Int}
    (run : Runs (spawn plan input output) events (.value result)) : ForksOnce events := by
  rcases spawn_parts run with ⟨errno, -, rfl⟩ | ⟨readEnd, writeEnd, errno, closing, -, rfl, only⟩ |
    ⟨readEnd, writeEnd, pid, child, fate, rest, rfl, inChild, inParent⟩
  · exact .never (only_answered.2 ⟨fun _ => rfl, only_nil⟩)
  · have modest : Only Call.DuplicatesNothing closing := only.mono fun _ closes =>
      IsTidying.duplicatesNothing (.inl closes)
    exact .never (only_answered.2 ⟨fun _ => rfl, only_answered.2 ⟨fun _ => rfl, modest⟩⟩)
  · obtain ⟨closed, awaiting, answer, tail, rfl, awaits, only, -⟩ := plan.confirm_cases inParent
    have modest_awaiting : Only Call.DuplicatesNothing awaiting :=
      (awaits.only (Channel.calls_await readEnd)).mono fun request await => by
        cases await <;> exact fun _ => rfl
    have modest_tail : Only Call.DuplicatesNothing tail := only.mono fun request same => by
      subst same
      exact fun _ => rfl
    refine @ForksOnce.once [_] _ _ _ _ ?_ (inChild.only ExecPlan.calls_enter) ?_
    · exact only_answered.2 ⟨fun _ => rfl, only_nil⟩
    · exact only_answered.2 ⟨fun _ => rfl, only_append.2 ⟨modest_awaiting, modest_tail⟩⟩

theorem Tidies.modest {readEnd writeEnd : Descriptor} {spawned : Except RunError Int}
    {result : Except RunError Descriptor}
    (tidies : Tidies scheduling plan readEnd writeEnd events spawned result) :
    Only Call.DuplicatesNothing events := by
  cases tidies with
  | failed only | concurrent _ only | ended _ _ only | faulty _ _ _ only =>
    exact only.mono fun _ tidying => tidying.duplicatesNothing

theorem startStage_forksOnce {result : Except RunError Descriptor}
    (run : Runs (startStage stage input scheduling) events (.value result)) :
    ForksOnce events := by
  rcases startStage_parts run with ⟨_, -, -, rfl⟩ | ⟨_, errno, -, -, rfl⟩ |
    ⟨_, readEnd, writeEnd, spawning, spawned, tail, -, rfl, spawns, tidies⟩
  · exact .never only_nil
  · exact .never (only_answered.2 ⟨fun _ => rfl, only_nil⟩)
  · have piping : Only Call.DuplicatesNothing [.answered .pipe (.ok (readEnd, writeEnd))] :=
      only_answered.2 ⟨fun _ => rfl, only_nil⟩
    exact (spawn_forksOnce spawns).append piping tidies.modest

section

variable {starting : List Event} {readEnd writeEnd : Descriptor}

/-- While a process starts a stage, it holds no more of an object than before, and the stage is the
only descendant that may. -/
theorem startStage_holdsOnlyAt {descriptors : List Descriptor} {object : Object}
    {result : Except RunError Descriptor}
    (run : Runs (startStage stage input scheduling) starting (.value result))
    (held : holdings.HoldsOnlyAt descriptors object)
    (past : ∀ name ∈ object.name?, holdings.Past name) :
    (holdings.afterAll starting).HoldsOnlyAt descriptors object ∧
      HeldOnlyBy holdings.inChild.lineage object (offspring holdings starting) := by
  have forks := startStage_forksOnce run
  refine ⟨held.afterAll past fun request reply member descriptor _ => ?_,
    fun process member _ _ => forks.lineage_eq member⟩
  exact forks.duplicatesNothing member descriptor

theorem startStage_writeEnd {result : Except RunError Descriptor}
    (run : Runs (startStage stage input scheduling) starting (.value result))
    (begins : starting.head? = some (.answered .pipe (.ok (readEnd, writeEnd))))
    (orderly : holdings.Orderly) (tidy : holdings.Tidy) (lawful : Lawful holdings.table starting)
    (input_open : holdings.table input ≠ .nothing) :
    HeldOnlyBy holdings.inChild.lineage (.writeEnd holdings.fresh) (offspring holdings starting) ∧
      (holdings.afterAll starting).HoldsOnlyAt [] (.writeEnd holdings.fresh) ∧
      (holdings.afterAll starting).Past holdings.fresh := by
  have forks := startStage_forksOnce run
  obtain ⟨-, -, leaves⟩ := run.careful
    (careful_startStage stage tidy.standing input_open) lawful tidy
  have left := leaves result rfl
  rcases startStage_parts run with ⟨_, -, -, rfl⟩ | ⟨_, errno, -, -, rfl⟩ |
    ⟨_, read, write, spawning, spawned, tail, -, rfl, -, tidies⟩
  · cases begins
  · cases begins
  cases begins
  obtain ⟨apart, read_free, write_free⟩ := lawful.1.pipe
  obtain ⟨-, held, past⟩ := orderly.piped readEnd writeEnd
  have past_name : ∀ name ∈ Object.name? (.writeEnd holdings.fresh),
      (holdings.piped readEnd writeEnd).Past name := by
    rintro _ ⟨⟩
    exact past
  have held_after := held.afterAll past_name fun request reply member descriptor _ =>
    forks.duplicatesNothing (.tail _ member) descriptor
  have closed : ((holdings.piped readEnd writeEnd).afterAll (spawning ++ tail)).table writeEnd =
      .nothing := by
    cases tidies with
    | failed | faulty => exact (congrFun left writeEnd).trans write_free
    | concurrent | ended =>
      have still_free : holdings.table.opened (some readEnd) writeEnd = .nothing := by
        simp [Table.opened, apart.symm, write_free]
      exact (congrFun left.eq writeEnd).trans still_free
  refine ⟨fun process member _ _ => forks.lineage_eq member, held_after.gone ?_, past.afterAll _⟩
  by_contra isOpen
  exact Holdings.isOpen_iff.2 isOpen closed

theorem startStage_spawns
    (run : Runs (startStage stage input scheduling) starting (.value (.ok readEnd)))
    (standing : holdings.table.Standing) (lawful : Lawful holdings.table starting)
    (input_open : holdings.table input ≠ .nothing) :
    ∃ plan writeEnd spawning pid tail,
      starting = .answered .pipe (.ok (readEnd, writeEnd)) :: (spawning ++ tail) ∧
      holdings.table.Offers readEnd writeEnd ∧
      Runs (spawn plan input writeEnd) spawning (.value (.ok pid)) ∧
      Only (IsTidying [writeEnd]) tail ∧
      Lawful (holdings.piped readEnd writeEnd).table spawning ∧
      ∀ descriptor ∈ [standardInput, standardOutput, input, writeEnd],
        (holdings.piped readEnd writeEnd).table descriptor ≠ .nothing := by
  obtain ⟨plan, writeEnd, spawning, pid, tail, -, rfl, spawns, only⟩ := startStage_ok run
  obtain ⟨apart, read_free, write_free⟩ := lawful.1.pipe
  have offers : holdings.table.Offers readEnd writeEnd := ⟨apart, read_free, write_free⟩
  have made_eq : (holdings.piped readEnd writeEnd).table = holdings.table.piped readEnd writeEnd :=
    Holdings.table_after ..
  refine ⟨plan, writeEnd, spawning, pid, tail, rfl, offers, spawns, only, ?_, ?_⟩
  · rw [made_eq]
    exact lawful.2.2.append.1
  · intro descriptor member
    rw [made_eq]
    simp only [List.mem_cons, List.not_mem_nil, or_false] at member
    rcases member with rfl | rfl | rfl | rfl
    · exact offers.keeps.isOpen (standing _ (by decide))
    · exact offers.keeps.isOpen (standing _ (by decide))
    · exact offers.keeps.isOpen input_open
    · simp [Table.piped, Table.after]

theorem startStage_replaced
    (run : Runs (startStage stage input scheduling) starting (.value (.ok readEnd)))
    (standing : holdings.table.Standing) (lawful : Lawful holdings.table starting)
    (input_open : holdings.table input ≠ .nothing) :
    ∀ process ∈ offspring holdings starting,
      ∃ image ∈ images holdings starting .pending, image.holds = process.holds := by
  intro process member
  obtain ⟨plan, writeEnd, _, _, tail, rfl, -, spawns, only, lawful, standing⟩ :=
    startStage_spawns run standing lawful input_open
  obtain ⟨watcher, reporter, _, closed, entering, rest, rfl, execs, quiet⟩ :=
    spawn_ok spawns lawful standing
  have only_child : Only (fun _ => True) (.answered (.close watcher) closed :: entering) :=
    only_answered.2 ⟨trivial, (execs.only plan.calls_execWith).any⟩
  have only_rest : Only (fun _ => True) (rest ++ tail) :=
    only_append.2 ⟨quiet.any, only.any⟩
  simp only [offspring, List.cons_append, census_answered, census_forked, images_answered,
    images_forked, only_child.census_eq, only_child.images_eq, only_rest.census_eq,
    Holdings.remains, List.append_nil, List.mem_singleton] at member ⊢
  subst member
  exact ⟨_, List.mem_append_left _ (List.mem_singleton.2 rfl), rfl⟩

theorem startStage_unduplicated
    (run : Runs (startStage stage input scheduling) starting (.value (.ok readEnd)))
    (orderly : holdings.Orderly) (standing : holdings.table.Standing)
    (lawful : Lawful holdings.table starting) (input_open : holdings.table input ≠ .nothing) :
    HeldOnlyAt [readEnd] (.readEnd holdings.fresh) (offspring holdings starting) := by
  obtain ⟨plan, writeEnd, spawning, _, tail, rfl, offers, spawns, only, lawful, -⟩ :=
    startStage_spawns run standing lawful input_open
  obtain ⟨held, -, past⟩ := orderly.piped readEnd writeEnd
  have above : 2 < readEnd := standing.above offers.read_free
  have apart : Apart readEnd input writeEnd :=
    ⟨Nat.ne_of_gt (Nat.lt_trans (by decide) above), Nat.ne_of_gt (Nat.lt_trans (by decide) above),
      (Table.ne_of_isOpen input_open offers.read_free).symm, offers.apart⟩
  have read_open : (holdings.piped readEnd writeEnd).table readEnd ≠ .nothing := by
    rw [Holdings.piped, Holdings.table_after]
    simp [Table.after, offers.apart]
  have untouched : Untouched readEnd (spawning ++ tail) := by
    refine untouched_append.2 ⟨(spawns.untouched (avoids_spawn apart) lawful read_open).1, ?_⟩
    exact only.untouched fun request tidying => tidying.unnamed (by simpa using offers.apart)
  rw [offspring, census_answered]
  refine heldOnlyAt_census _ _ _ held ?_ fun descriptor member => ?_
  · rintro _ ⟨⟩
    exact past
  · exact List.mem_singleton.1 member ▸ untouched.unduplicated

theorem startStage_readEnd
    (run : Runs (startStage stage input scheduling) starting (.value (.ok readEnd)))
    (orderly : holdings.Orderly) (tidy : holdings.Tidy) (lawful : Lawful holdings.table starting)
    (input_open : holdings.table input ≠ .nothing) :
    HeldOnlyAt [] (.readEnd holdings.fresh) (offspring holdings starting) ∧
      (holdings.afterAll starting).HoldsOnlyAt [readEnd] (.readEnd holdings.fresh) ∧
      (holdings.afterAll starting).Past holdings.fresh := by
  have forks := startStage_forksOnce run
  have standing := tidy.standing
  have standard := (run.careful (careful_startStage stage standing input_open) lawful tidy).1
  have replaced := startStage_replaced run standing lawful input_open
  have unduplicated := startStage_unduplicated run orderly standing lawful input_open
  obtain ⟨plan, writeEnd, spawning, _, tail, rfl, offers, -⟩ :=
    startStage_spawns run standing lawful input_open
  obtain ⟨held, -, past⟩ := orderly.piped readEnd writeEnd
  have above : 2 < readEnd := standing.above offers.read_free
  refine ⟨fun process member descriptor holds => ?_, ?_, past.afterAll _⟩
  · obtain rfl := List.mem_singleton.1 (unduplicated process member descriptor holds)
    -- The stage is at an exec, where nothing but standard descriptors is left.
    obtain ⟨image, starts, same⟩ := replaced process member
    have at_most : descriptor ≤ 2 := (standard image starts descriptor).1 (by simp [same, holds])
    exact absurd at_most (Nat.not_le.2 above)
  · refine held.afterAll ?_ fun request reply member descriptor _ => ?_
    · rintro _ ⟨⟩
      exact past
    · exact forks.duplicatesNothing (.tail _ member) descriptor

theorem startStage_handsOver {object : Object} {result : Except RunError Descriptor}
    {descriptors : List Descriptor} {closing : List Event} {descriptor : Descriptor}
    (run : Runs (startStage stage input scheduling) starting (.value result))
    (only : Only (IsClose descriptors) closing)
    (held : holdings.HoldsOnlyAt [descriptor] object)
    (past : ∀ name ∈ object.name?, holdings.Past name) (closed : (Call.close descriptor).Reply)
    (later : List Event) (fate : Fate) :
    HeldOnlyBy (holdings.afterAll closing).inChild.lineage object
      (census holdings (closing ++ (starting ++ .answered (.close descriptor) closed :: later))
        fate) := by
  have past_closing : ∀ name ∈ object.name?, (holdings.afterAll closing).Past name :=
    fun name named => (past name named).afterAll closing
  have held_closing : (holdings.afterAll closing).HoldsOnlyAt [descriptor] object := by
    refine held.afterAll past fun request reply member other _ => ?_
    exact IsTidying.duplicatesNothing (.inl (only.of_mem member)) other
  obtain ⟨held_starting, stage_alone⟩ := startStage_holdsOnlyAt run held_closing past_closing
  have past_starting : ∀ name ∈ object.name?,
      ((holdings.afterAll closing).afterAll starting).Past name :=
    fun name named => (past_closing name named).afterAll starting
  have given_up : (((holdings.afterAll closing).afterAll starting).after
      (.answered (.close descriptor) closed)).HoldsOnlyAt [] object := by
    refine (held_starting.of_past past_starting ?_).gone (Holdings.put_slot_self none)
    rintro _ _ ⟨⟩ _ _
    rfl
  have later_held := census_of_past later fate given_up
    fun name named => (past_starting name named).after _
  rw [census_append, only.offspring_eq, List.nil_append, census_append, census_answered]
  exact heldOnlyBy_append.2 ⟨stage_alone, later_held.heldOnlyBy _⟩

end

namespace Pipeline

/-- No process but the next stage holds the ends of the pipes that the supervisor of a pipeline
makes. The stage that is started next is the child that is forked next. -/
structure KeepsEnds (pipeline : Pipeline) (input : Descriptor) (flags : Flags)
    (scheduling : Scheduling) (supervisor : Holdings) (job : List Event)
    (processes : List Process) : Prop where
  writeEnd {first others : List Stage} {stage : Stage} {carried : Option Descriptor}
    {front starting later : List Event} {readEnd writeEnd : Descriptor}
    {result : Except RunError Descriptor} (earlier_eq : pipeline.earlier = first ++ stage :: others)
    (before : Runs (startEarlier input flags scheduling none first) front (.value (.ok carried)))
    (starts : Runs (startStage stage (carried.getD input) scheduling) starting (.value result))
    (begins : starting.head? = some (.answered .pipe (.ok (readEnd, writeEnd))))
    (job_eq : job = front ++ (starting ++ later)) :
    HeldOnlyBy (supervisor.afterAll front).inChild.lineage
      (.writeEnd (supervisor.afterAll front).fresh) processes
  readEnd {first others : List Stage} {stage next : Stage} {carried : Option Descriptor}
    {front starting closing starting' later : List Event} {readEnd readEnd' : Descriptor}
    {closed : (Call.close readEnd).Reply}
    (earlier_eq : pipeline.earlier = first ++ stage :: next :: others)
    (before : Runs (startEarlier input flags scheduling none first) front (.value (.ok carried)))
    (starts : Runs (startStage stage (carried.getD input) scheduling) starting
      (.value (.ok readEnd)))
    (closes : Runs (closeAll carried.toList) closing (.value ()))
    (starts_next : Runs (startStage next readEnd scheduling) starting' (.value (.ok readEnd')))
    (job_eq : job = front ++ (starting ++ (closing ++ (starting' ++
      .answered (.close readEnd) closed :: later)))) :
    HeldOnlyBy (supervisor.afterAll (front ++ (starting ++ closing))).inChild.lineage
      (.readEnd (supervisor.afterAll front).fresh) processes
  last {first : List Stage} {stage : Stage} {carried : Option Descriptor}
    {front starting later : List Event} {readEnd : Descriptor}
    (earlier_eq : pipeline.earlier = first ++ [stage])
    (before : Runs (startEarlier input flags scheduling none first) front (.value (.ok carried)))
    (starts : Runs (startStage stage (carried.getD input) scheduling) starting
      (.value (.ok readEnd)))
    (job_eq : job = front ++ (starting ++ later)) :
    HeldOnlyBy supervisor.lineage (.readEnd (supervisor.afterAll front).fresh) processes

theorem KeepsEnds.mono {pipeline : Pipeline} {supervisor : Holdings} {job : List Event}
    {processes more : List Process}
    (keeps : pipeline.KeepsEnds input flags scheduling supervisor job processes)
    (others : ∀ lineage object, ∀ name ∈ object.name?, supervisor.Future name →
      HeldOnlyBy lineage object processes → HeldOnlyBy lineage object more) :
    pipeline.KeepsEnds input flags scheduling supervisor job more := by
  have future : ∀ front, supervisor.Future (supervisor.afterAll front).fresh := fun front =>
    (Holdings.future_fresh _).of_afterAll
  constructor
  · intro _ _ _ _ front _ _ _ _ _ earlier_eq before starts begins job_eq
    exact others _ _ _ rfl (future front) (keeps.writeEnd earlier_eq before starts begins job_eq)
  · intro _ _ _ _ _ front _ _ _ _ _ _ _ earlier_eq before starts closes starts_next job_eq
    exact others _ _ _ rfl (future front)
      (keeps.readEnd earlier_eq before starts closes starts_next job_eq)
  · intro _ _ _ front _ _ _ earlier_eq before starts job_eq
    exact others _ _ _ rfl (future front) (keeps.last earlier_eq before starts job_eq)

theorem calls_becomeLast (pipeline : Pipeline) :
    (pipeline.becomeLast input output).Calls fun _ => True := by
  have announces (mortal : Bool) : (announceNotFound mortal).Calls fun _ => True :=
    (calls_announceNotFound mortal).any
  unfold becomeLast
  cases ExecPlan.ofStage pipeline.last with
  | error error => exact (announces _).bind fun _ => trivial
  | ok plan =>
    have execs := (@ExecPlan.calls_execWith input output plan).any
    have tells : (execInPlace plan input output).Calls fun _ => True := by
      refine calls_perform_bind trivial rfl fun saved => execs.bind fun failure => ?_
      cases saved with
      | error failed => exact (announces _).bind fun _ => trivial
      | ok copy =>
        have closes := (calls_closeAll [copy]).any
        exact calls_perform_bind trivial rfl fun _ => closes.bind fun _ =>
          (announces _).bind fun _ => trivial
    exact tells.bind fun _ => trivial

section

variable {pipeline : Pipeline} {supervisor : Holdings} {reporter : Option Descriptor}
  {first : List Stage} {carried : Option Descriptor} {job front starting later : List Event}
  {fate : Fate}

theorem startEarlier_leaves
    (before : Runs (startEarlier input flags scheduling none first) front (.value (.ok carried)))
    (tidy : supervisor.Tidy) (lawful : Lawful supervisor.table (front ++ later))
    (input_open : supervisor.table input ≠ .nothing) :
    (supervisor.afterAll front).Tidy ∧ Lawful (supervisor.afterAll front).table later ∧
      (supervisor.afterAll front).table (carried.getD input) ≠ .nothing := by
  obtain ⟨-, tidy_front, leaves⟩ := before.careful
    (careful_startEarlier tidy.standing input_open (.none _) first) lawful.append.1 tidy
  have opens := leaves _ rfl
  refine ⟨tidy_front, ?_, opens.getD_isOpen input_open⟩
  rw [Holdings.table_afterAll]
  exact lawful.append.2

theorem exists_supervise_eq (pipeline : Pipeline) (input output : Descriptor) (flags : Flags)
    (scheduling : Scheduling) (reporter : Option Descriptor) :
    ∃ conclude : Except (PipelineFailure × Flags) (Option Descriptor) → Action α,
      pipeline.supervise input output flags scheduling reporter =
        startEarlier input flags scheduling none pipeline.earlier >>= conclude ∧
      ∀ started, (conclude started).Calls fun _ => True := by
  have leaves : (exit supervisorFailureStatus : Action α).Calls fun _ => True := calls_exit _
  unfold supervise Pipeline.run
  rw [Action.bind_assoc]
  refine ⟨_, rfl, fun started => Calls.bind ?_ ?_⟩
  · cases started with
    | error failure => trivial
    | ok carried =>
      have closes := (calls_closeAll carried.toList).any
      exact (calls_becomeLast pipeline).bind fun _ => closes.bind fun _ => trivial
  · rintro ⟨failure, _⟩
    cases reporter with
    | none => exact leaves
    | some reporter =>
      have reports := (Channel.calls_report reporter failure.errno).any
      exact reports.bind fun _ => leaves

theorem forks_no_more {stage : Stage} {readEnd : Descriptor} {outcome : Outcome α}
    (run : Runs (pipeline.supervise input output flags scheduling reporter)
      (front ++ (starting ++ later)) outcome)
    (earlier_eq : pipeline.earlier = first ++ [stage])
    (before : Runs (startEarlier input flags scheduling none first) front (.value (.ok carried)))
    (starts : Runs (startStage stage (carried.getD input) scheduling) starting
      (.value (.ok readEnd))) : Only (fun _ => True) later := by
  have closes := (calls_closeAll carried.toList).any
  obtain ⟨conclude, supervise_eq, concludes⟩ :=
    exists_supervise_eq pipeline input output flags scheduling reporter
  rw [supervise_eq, earlier_eq, startEarlier_append, Action.bind_assoc] at run
  have run := before.after_first run
  simp only [startEarlier] at run
  split at run
  · refine (only_append.1 (run.only ?_)).2
    exact Calls.bind (closes.bind fun _ => trivial) concludes
  · rw [Action.bind_assoc] at run
    have run := starts.after_first run
    refine run.only ?_
    exact Calls.bind (closes.bind fun _ => trivial) concludes

/-- Whatever fails, and wherever the processes of a pipeline are: the ends of its pipes are held by
the stages alone that read and write them. -/
theorem keepsEnds {outcome : Outcome α}
    (run : Runs (pipeline.supervise input output flags scheduling reporter) job outcome)
    (tidy : supervisor.Tidy) (orderly : supervisor.Orderly) (lawful : Lawful supervisor.table job)
    (input_open : supervisor.table input ≠ .nothing) (fate : Fate) :
    pipeline.KeepsEnds input flags scheduling supervisor job (census supervisor job fate) := by
  -- The stages that were started before the pipe was made cannot have it.
  have unmade : ∀ {front object}, object.name? = some (supervisor.afterAll front).fresh →
      HeldOnlyAt [] object (offspring supervisor front) := fun named =>
    offspring_of_future orderly named (Holdings.future_fresh _)
  constructor
  · intro first others stage carried front starting later readEnd writeEnd result earlier_eq before
      starts begins job_eq
    subst job_eq
    obtain ⟨tidy_front, lawful_front, source_open⟩ :=
      startEarlier_leaves before tidy lawful input_open
    obtain ⟨held, gone, past⟩ := startStage_writeEnd starts begins (orderly.afterAll front)
      tidy_front lawful_front.append.1 source_open
    rw [census_append, census_append]
    have later_held := census_of_past later fate gone (by rintro _ ⟨⟩; exact past)
    exact heldOnlyBy_append.2 ⟨(unmade rfl).heldOnlyBy _,
      heldOnlyBy_append.2 ⟨held, later_held.heldOnlyBy _⟩⟩
  · intro first others stage next carried front starting closing starting' later readEnd readEnd'
      closed earlier_eq before starts closes starts_next job_eq
    subst job_eq
    obtain ⟨tidy_front, lawful_front, source_open⟩ :=
      startEarlier_leaves before tidy lawful input_open
    obtain ⟨unheld, held, past⟩ := startStage_readEnd starts (orderly.afterAll front) tidy_front
      lawful_front.append.1 source_open
    have handed := startStage_handsOver starts_next (closes.only (calls_closeAll _)) held
      (by rintro _ ⟨⟩; exact past) closed later fate
    rw [census_append, census_append, Holdings.afterAll_append, Holdings.afterAll_append]
    exact heldOnlyBy_append.2 ⟨(unmade rfl).heldOnlyBy _,
      heldOnlyBy_append.2 ⟨unheld.heldOnlyBy _, handed⟩⟩
  · intro first stage carried front starting later readEnd earlier_eq before starts job_eq
    subst job_eq
    obtain ⟨tidy_front, lawful_front, source_open⟩ :=
      startEarlier_leaves before tidy lawful input_open
    obtain ⟨unheld, -, -⟩ := startStage_readEnd starts (orderly.afterAll front) tidy_front
      lawful_front.append.1 source_open
    have only := forks_no_more run earlier_eq before starts
    rw [census_append, census_append, only.census_eq]
    refine heldOnlyBy_append.2 ⟨(unmade rfl).heldOnlyBy _,
      heldOnlyBy_append.2 ⟨unheld.heldOnlyBy _, fun process member _ _ => ?_⟩⟩
    simpa [Holdings.lineage_afterAll] using Holdings.lineage_remains member

end

end Pipeline

end PipelineShell
