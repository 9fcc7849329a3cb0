import PipelineShell.Proofs.Pipeline.Attempts
import PipelineShell.Proofs.Pipeline.Frame
import PipelineShell.Proofs.Pipeline.Stage
import PipelineShell.Proofs.System.Objects

namespace PipelineShell

open PipelineShell.Action

variable {events : List Event} {input output : Descriptor} {holdings base : Holdings}
  {source sink : Object} {scheduling : Scheduling} {flags : Flags}

/-! ## Duplicates -/

/-- Neither the process nor a descendant duplicates a descriptor to itself. -/
def NoSelfDuplicate (events : List Event) : Prop :=
  ∀ source target reply, .answered (.duplicateTo source target) reply ∈ tree events →
    source ≠ target

theorem NoSelfDuplicate.append {first second : List Event} (h : NoSelfDuplicate first)
    (h' : NoSelfDuplicate second) : NoSelfDuplicate (first ++ second) := by
  intro source target reply member
  rw [tree_append] at member
  exact (List.mem_append.1 member).elim (h source target reply) (h' source target reply)

theorem NoSelfDuplicate.forked {child rest : List Event} (h : NoSelfDuplicate child)
    (h' : NoSelfDuplicate rest) (pid : Int) (fate : Fate) :
    NoSelfDuplicate (.forked pid child fate :: rest) := by
  intro source target reply member
  rw [tree_forked, List.mem_cons] at member
  rcases member with same | member
  · cases same
  · exact (List.mem_append.1 member).elim (h source target reply) (h' source target reply)

theorem NoSelfDuplicate.answered {rest : List Event} (h : NoSelfDuplicate rest) (request : Call)
    (reply : request.Reply) (apart : ∀ source, request ≠ .duplicateTo source source) :
    NoSelfDuplicate (.answered request reply :: rest) := by
  intro source target answer member
  rw [tree_answered, List.mem_cons] at member
  rcases member with same | member
  · cases same
    rintro rfl
    exact apart _ rfl
  · exact h source target answer member

def Call.IsQuiet : Call → Prop
  | duplicateTo .. => False
  | _ => True

theorem Only.quiet {allowed : Call → Prop} (only : Only allowed events)
    (other : ∀ source target, ¬ allowed (.duplicateTo source target)) :
    Only Call.IsQuiet events := by
  refine only.mono fun request ok => ?_
  cases request with
  | duplicateTo source target => exact other source target ok
  | _ => trivial

theorem Only.noSelfDuplicate (quiet : Only Call.IsQuiet events) : NoSelfDuplicate events := by
  intro source target reply member
  rw [quiet.tree_eq] at member
  exact absurd (quiet.of_mem member) not_false

theorem not_isTidying_duplicateTo {ends : List Descriptor} (source target : Descriptor) :
    ¬ IsTidying ends (.duplicateTo source target) := by
  rintro (⟨_, -, ⟨⟩⟩ | ⟨_, ⟨⟩⟩)

theorem noSelfDuplicate_of_starts (only : Only (IsStart input output) events) :
    NoSelfDuplicate events := by
  intro source target reply member
  rw [only.tree_eq] at member
  generalize same : Call.duplicateTo source target = request at reply member
  cases only.of_mem member with
  | input apart =>
    cases same
    exact apart
  | output apart =>
    cases same
    exact apart
  | signal | exec => cases same

/-! ## Connecting the streams -/

def Holdings.Offers (holdings : Holdings) (source target : Descriptor) (object : Object) : Prop :=
  ∃ closes, holdings.slot source = some ⟨object, closes⟩ ∧ (source = target → closes = false)

theorem Holdings.Offers.of_slot_eq {later : Holdings} {from_ target : Descriptor} {object : Object}
    (offers : holdings.Offers from_ target object)
    (same : later.slot from_ = holdings.slot from_) : later.Offers from_ target object := by
  obtain ⟨closes, held, stays⟩ := offers
  exact ⟨closes, same.trans held, stays⟩

theorem attach_connects {from_ target : Descriptor} {object : Object}
    (run : Runs (attach from_ target) events (.value (.ok ())))
    (offers : holdings.Offers from_ target object) :
    (holdings.afterAll events).slot target = some ⟨object, false⟩ ∧
      ∀ other ≠ target, (holdings.afterAll events).slot other = holdings.slot other := by
  obtain ⟨closes, held, stays⟩ := offers
  unfold attach at run
  split at run
  · rename_i same
    obtain ⟨rfl, -⟩ := runs_done_iff.1 run
    subst same
    exact ⟨by rw [Holdings.afterAll_nil, held, stays rfl], fun _ _ => rfl⟩
  · rename_i apart
    rcases (runs_call_iff rfl).1 run with ⟨-, ⟨⟩⟩ | ⟨reply, _, rfl, returns⟩
    obtain ⟨rfl, same⟩ := runs_done_iff.1 returns
    cases same
    rw [Holdings.afterAll_cons, Holdings.afterAll_nil, Holdings.after_duplicateTo, if_neg apart,
      Holdings.duplicate, held]
    exact ⟨Holdings.put_slot_self _, fun other different => Holdings.put_slot_of_ne different _⟩

/-- What standard input and standard output refer to once they are connected. Standard input is
connected first, and what it referred to before is lost as an output then. -/
theorem attachStreams_connects (run : Runs (attachStreams input output) events (.value (.ok ())))
    (offers_source : holdings.Offers input standardInput source)
    (offers_sink : holdings.Offers output standardOutput sink) :
    (holdings.afterAll events).slot standardInput = some ⟨source, false⟩ ∧
      (holdings.afterAll events).slot standardOutput =
        some ⟨if output = standardInput then source else sink, false⟩ := by
  unfold attachStreams at run
  rw [Runs.bind_value_iff (steady_attach ..).contained] at run
  obtain ⟨first, second, attached, rfl, run_input, run_output⟩ := run
  rcases attached with errno | ⟨⟩
  · obtain ⟨-, ⟨⟩⟩ := runs_done_iff.1 run_output
  obtain ⟨input_connected, others⟩ := attach_connects run_input offers_source
  have offers : (holdings.afterAll first).Offers output standardOutput
      (if output = standardInput then source else sink) := by
    by_cases overwritten : output = standardInput
    · rw [if_pos overwritten, overwritten]
      exact ⟨false, input_connected, fun _ => rfl⟩
    · rw [if_neg overwritten]
      exact offers_sink.of_slot_eq (others output overwritten)
  obtain ⟨output_connected, others'⟩ := attach_connects run_output offers
  rw [Holdings.afterAll_append]
  exact ⟨(others' standardInput (by decide)).trans input_connected, output_connected⟩

/-! ## Becoming a program -/

def Image.IsFor (image : Image) (stage : Stage) : Prop :=
  ∃ program, stage.Asks program image.arguments ∧ image.program = program.toString

structure Image.Connects (image : Image) (source sink : Object) : Prop where
  input : image.holds standardInput = some source
  output : image.holds standardOutput = some sink
  others : ∀ descriptor, descriptor ≠ standardInput → descriptor ≠ standardOutput →
    ∀ object, image.holds descriptor = some object → ∃ other, object = .original other

/-- Apart from the standard streams, an exec leaves nothing open that was made in the run. -/
def Holdings.SealedApart (holdings : Holdings) : Prop :=
  ∀ descriptor, descriptor ≠ standardInput → descriptor ≠ standardOutput →
    holdings.Sealed descriptor

theorem Holdings.SealedApart.afterAll (isSealed : holdings.SealedApart)
    (unconnected : ∀ descriptor, descriptor ≠ standardInput → descriptor ≠ standardOutput →
      Unconnected descriptor events) : (holdings.afterAll events).SealedApart :=
  fun descriptor not_input not_output =>
    sealed_afterAll (isSealed descriptor not_input not_output)
      (unconnected descriptor not_input not_output)

theorem Holdings.SealedApart.after {request : Call} {reply : request.Reply}
    (isSealed : holdings.SealedApart) (quiet : request.IsQuiet) :
    (holdings.after (.answered request reply)).SealedApart := by
  intro descriptor not_input not_output
  refine sealed_after (isSealed descriptor not_input not_output) _ ?_
  rintro source answer ⟨⟩
  exact quiet

namespace ExecPlan

variable {plan : ExecPlan} {program : String} {arguments : List String}

theorem execWith_replaced
    (run : Runs (plan.execWith input output) events (.ended (.replaced program arguments))) :
    (program = plan.program.toString ∧ arguments = plan.arguments) ∧
      ∃ attaching first second, events = attaching ++ [
          .answered (.setSignal Signal.interrupt.number false) first,
          .answered (.setSignal Signal.brokenPipe.number false) second] ∧
        Runs (attachStreams input output) attaching (.value (.ok ())) := by
  rcases (Runs.bind_iff (steady_attachStreams ..).contained).1 run with
    ⟨attaching, rest, attached, rfl, run_attach, restores⟩ | ⟨fate, same, run_attach⟩
  · rcases attached with errno | ⟨⟩
    · obtain ⟨-, ⟨⟩⟩ := runs_done_iff.1 restores
    rcases (runs_call_iff rfl).1 restores with ⟨-, ⟨⟩⟩ | ⟨first, _, rfl, restores'⟩
    rcases (runs_call_iff rfl).1 restores' with ⟨-, ⟨⟩⟩ | ⟨second, _, rfl, execs⟩
    rcases runs_exec_iff.1 execs with ⟨-, ⟨⟩⟩ | ⟨rfl, same⟩ | ⟨errno, _, rfl, returns⟩
    · cases same
      exact ⟨⟨rfl, rfl⟩, attaching, first, second, rfl, run_attach⟩
    · obtain ⟨-, ⟨⟩⟩ := runs_done_iff.1 returns
  · cases same
    cases run_attach.pending_of_steady (steady_attachStreams ..)

theorem connects_of_execWith {stage : Stage}
    (run : Runs (plan.execWith input output) events (.ended (.replaced program arguments)))
    (planned : ofStage stage = .ok plan)
    (offers_source : holdings.Offers input standardInput source)
    (offers_sink : holdings.Offers output standardOutput sink)
    (isSealed : holdings.SealedApart) :
    ∃ image, images holdings events (.replaced program arguments) = [image] ∧ image.IsFor stage ∧
      image.Connects source (if output = standardInput then source else sink) := by
  have only := run.only plan.calls_execWith
  have asks := ofStage_ok planned
  obtain ⟨⟨rfl, rfl⟩, attaching, first, second, rfl, attaches⟩ := execWith_replaced run
  obtain ⟨input_connected, output_connected⟩ :=
    attachStreams_connects attaches offers_source offers_sink
  rw [only.images_eq]
  refine ⟨_, rfl, ⟨plan.program, asks, rfl⟩, ?_, ?_, ?_⟩
  · show ((holdings.afterAll _).slot standardInput).bind _ = _
    rw [Holdings.afterAll_append]
    exact congrArg (Option.bind · _) input_connected
  · show ((holdings.afterAll _).slot standardOutput).bind _ = _
    rw [Holdings.afterAll_append]
    exact congrArg (Option.bind · _) output_connected
  · have unconnected : ∀ descriptor, descriptor ≠ standardInput → descriptor ≠ standardOutput →
        Holdings.Unconnected descriptor (attaching ++ [
          .answered (.setSignal Signal.interrupt.number false) first,
          .answered (.setSignal Signal.brokenPipe.number false) second]) := by
      intro descriptor not_input not_output
      refine only.unconnected fun from_ start => ?_
      cases start with
      | input => exact not_input rfl
      | output => exact not_output rfl
    exact isSealed.afterAll unconnected

theorem enter_replaced {α : Type} {channel : Channel}
    (run : Runs (plan.enter channel input output : Action α) events
      (.ended (.replaced program arguments))) :
    ∃ closed starting, events = .answered (.close channel.watcher) closed :: starting ∧
      Runs (plan.execWith input output) starting (.ended (.replaced program arguments)) := by
  rcases (runs_call_iff rfl).1 run with ⟨-, ⟨⟩⟩ | ⟨closed, starting, rfl, starts⟩
  refine ⟨closed, starting, rfl, ?_⟩
  rcases (Runs.bind_iff (plan.contained_execWith ..)).1 starts with
    ⟨_, _, errno, rfl, -, reports⟩ | ⟨_, same, execs⟩
  · rcases (Channel.runs_report_exit reports).ended with ⟨⟨⟩⟩ | ⟨_, ⟨⟩⟩
  · cases same
    exact execs

end ExecPlan

/-! ## Starting a stage -/

structure Starts (holdings : Holdings) (events : List Event) (stage : Stage)
    (source sink : Object) : Prop where
  image : ∃ image, images holdings events .pending = [image] ∧ image.IsFor stage ∧
    image.Connects source sink
  unconnected : ∀ descriptor, Holdings.Unconnected descriptor events
  apart : NoSelfDuplicate events

theorem spawn_ok {plan : ExecPlan} {pid : Int} {table : Table}
    (run : Runs (spawn plan input output) events (.value (.ok pid))) (lawful : Lawful table events)
    (standing : ∀ descriptor ∈ [standardInput, standardOutput, input, output],
      table descriptor ≠ .nothing) :
    ∃ readEnd writeEnd pid' closed starting rest,
      events = .answered .pipe (.ok (readEnd, writeEnd)) ::
        .forked pid' (.answered (.close readEnd) closed :: starting)
          (.replaced plan.program.toString plan.arguments) :: rest ∧
      Runs (plan.execWith input output) starting
        (.ended (.replaced plan.program.toString plan.arguments)) ∧
      Only Call.IsQuiet rest := by
  obtain ⟨-, -, result⟩ := spawn_cases run lawful standing
  rcases spawn_parts run with ⟨_, ⟨⟩, -⟩ | ⟨_, _, _, _, ⟨⟩, -, -⟩ |
    ⟨readEnd, writeEnd, pid', child, fate, rest, rfl, inChild, inParent⟩
  obtain ⟨closed, awaiting, answer, tail, rfl, awaits, only_tail, -⟩ := plan.confirm_cases inParent
  have only_awaiting := awaits.only (Channel.calls_await readEnd)
  -- The parent has seen that its child became the program.
  obtain rfl : fate = .replaced plan.program.toString plan.arguments := by
    cases result with
    | @started _ other forked =>
      have one : pid' = pid ∧ child = other ∧
          fate = .replaced plan.program.toString plan.arguments := by
        simpa [only_awaiting.children_eq, only_tail.children_eq] using forked
      exact one.2.2
  obtain ⟨closed', starting, rfl, execs⟩ := ExecPlan.enter_replaced inChild
  have quiet : Only Call.IsQuiet (.answered (.close writeEnd) closed :: (awaiting ++ tail)) :=
    only_answered.2 ⟨trivial, only_append.2 ⟨only_awaiting.quiet nofun, only_tail.quiet nofun⟩⟩
  exact ⟨readEnd, writeEnd, pid', closed', starting, _, rfl, execs, quiet⟩

theorem spawn_started {plan : ExecPlan} {stage : Stage} {pid : Int}
    (run : Runs (spawn plan input output) events (.value (.ok pid)))
    (planned : ExecPlan.ofStage stage = .ok plan) (lawful : Lawful holdings.table events)
    (standing : ∀ descriptor ∈ [standardInput, standardOutput, input, output],
      holdings.table descriptor ≠ .nothing)
    (not_standardInput : output ≠ standardInput)
    (offers_source : holdings.Offers input standardInput source)
    (offers_sink : holdings.Offers output standardOutput sink)
    (isSealed : holdings.SealedApart) : Starts holdings events stage source sink := by
  obtain ⟨readEnd, writeEnd, pid', closed, starting, rest, rfl, execs, quiet⟩ :=
    spawn_ok run lawful standing
  obtain ⟨-, free_read, -⟩ := lawful.1.pipe
  let made := holdings.after (.answered .pipe (.ok (readEnd, writeEnd)))
  let entered := made.inChild.after (.answered (.close readEnd) closed)
  have kept : ∀ descriptor, holdings.table descriptor ≠ .nothing →
      entered.slot descriptor = holdings.slot descriptor := by
    intro descriptor isOpen
    have not_read := Table.ne_of_isOpen isOpen free_read
    calc entered.slot descriptor = made.inChild.slot descriptor :=
          Holdings.put_slot_of_ne not_read none
      _ = holdings.slot descriptor :=
          Holdings.slot_after rfl (lawful.1.not_mem_gains isOpen)
  have isSealed_made : made.SealedApart := isSealed.after trivial
  have isSealed_child : made.inChild.SealedApart := isSealed_made
  have isSealed_entered : entered.SealedApart := isSealed_child.after trivial
  obtain ⟨image, became, isFor, connects⟩ := ExecPlan.connects_of_execWith execs planned
    (offers_source.of_slot_eq (kept input (standing input (by simp))))
    (offers_sink.of_slot_eq (kept output (standing output (by simp)))) isSealed_entered
  rw [if_neg not_standardInput] at connects
  refine ⟨⟨image, ?_, isFor, connects⟩, fun descriptor => ?_, ?_⟩
  · rw [images_answered, images_forked, images_answered, became, quiet.images_eq]
    rfl
  · intro from_ reply member
    rcases List.mem_cons.1 member with same | member
    · cases same
    rcases List.mem_cons.1 member with same | member
    · cases same
    · exact quiet.of_mem member
  · have apart_starting := noSelfDuplicate_of_starts (execs.only plan.calls_execWith)
    have apart_child := apart_starting.answered (.close readEnd) closed nofun
    exact (apart_child.forked quiet.noSelfDuplicate pid' _).answered .pipe _ nofun

theorem startStage_ok {stage : Stage} {readEnd : Descriptor}
    (run : Runs (startStage stage input scheduling) events (.value (.ok readEnd))) :
    ∃ plan writeEnd spawning pid tail, ExecPlan.ofStage stage = .ok plan ∧
      events = .answered .pipe (.ok (readEnd, writeEnd)) :: (spawning ++ tail) ∧
      Runs (spawn plan input writeEnd) spawning (.value (.ok pid)) ∧
      Only (IsTidying [writeEnd]) tail := by
  rcases startStage_parts run with ⟨_, -, ⟨⟩, -⟩ | ⟨_, _, -, ⟨⟩, -⟩ |
    ⟨plan, readEnd', writeEnd, spawning, spawned, tail, planned, rfl, spawns, tidies⟩
  cases tidies with
  | @concurrent pid h only => exact ⟨plan, writeEnd, spawning, pid, tail, planned, rfl, spawns, only⟩
  | @ended pid reply waited member only =>
    exact ⟨plan, writeEnd, spawning, pid, tail, planned, rfl, spawns, only⟩

theorem startStage_started {stage : Stage} {readEnd : Descriptor}
    (run : Runs (startStage stage input scheduling) events (.value (.ok readEnd)))
    (lawful : Lawful holdings.table events)
    (standing : ∀ descriptor ∈ [standardInput, standardOutput, input],
      holdings.table descriptor ≠ .nothing)
    (offers_source : holdings.Offers input standardInput source)
    (isSealed : holdings.SealedApart) :
    Starts holdings events stage source (.writeEnd holdings.fresh) ∧
      holdings.slot readEnd = none ∧
      (holdings.afterAll events).slot readEnd = some ⟨.readEnd holdings.fresh, true⟩ ∧
      holdings.made < (holdings.afterAll events).made := by
  obtain ⟨plan, writeEnd, spawning, pid, tail, planned, rfl, spawns, only⟩ := startStage_ok run
  obtain ⟨lawful_pipe, -, lawful⟩ := lawful
  obtain ⟨apart, free_read, free_write⟩ := lawful_pipe.pipe
  let made := holdings.after (.answered .pipe (.ok (readEnd, writeEnd)))
  have read_made : made.slot readEnd = some ⟨.readEnd holdings.fresh, true⟩ :=
    (Holdings.put_slot_of_ne apart _).trans (Holdings.put_slot_self _)
  have write_made : made.slot writeEnd = some ⟨.writeEnd holdings.fresh, true⟩ :=
    Holdings.put_slot_self _
  have kept : ∀ descriptor, holdings.table descriptor ≠ .nothing →
      made.slot descriptor = holdings.slot descriptor := fun descriptor isOpen =>
    Holdings.slot_after rfl (lawful_pipe.not_mem_gains isOpen)
  have isOpen_made : ∀ descriptor ∈ [standardInput, standardOutput, input, writeEnd],
      made.table descriptor ≠ .nothing := by
    intro descriptor member
    rw [Holdings.isOpen_iff]
    rcases (List.mem_append (s := [_, _, _])).1 member with member | member
    · rw [kept descriptor (standing descriptor member), ← Holdings.isOpen_iff]
      exact standing descriptor member
    · obtain rfl := List.mem_singleton.1 member
      rw [write_made]
      nofun
  have write_apart : ∀ descriptor ∈ [standardInput, standardOutput], writeEnd ≠ descriptor := by
    intro descriptor member
    have isOpen := standing descriptor (List.mem_append_left [input] member)
    exact (Table.ne_of_isOpen isOpen free_write).symm
  rw [← Holdings.table_after] at lawful
  obtain ⟨⟨image, became, isFor, connects⟩, unconnected, apart_duplicates⟩ :=
    spawn_started spawns planned lawful.append.1 isOpen_made (write_apart _ (by simp))
      (offers_source.of_slot_eq (kept input (standing input (by simp))))
      ⟨true, write_made, fun same => absurd same (write_apart _ (by simp))⟩
      (isSealed.after trivial)
  have quiet : Only Call.IsQuiet tail := only.quiet not_isTidying_duplicateTo
  have free : holdings.slot readEnd = none := by
    by_contra isOpen
    exact Holdings.isOpen_iff.2 isOpen free_read
  refine ⟨⟨⟨image, ?_, isFor, connects⟩, fun descriptor from_ reply member => ?_, ?_⟩, free, ?_, ?_⟩
  · rw [images_answered, images_append, became, only.images_eq]
    rfl
  · rcases List.mem_cons.1 member with same | member
    · cases same
    · exact (List.mem_append.1 member).elim (unconnected descriptor from_ reply) quiet.of_mem
  · exact (apart_duplicates.append quiet.noSelfDuplicate).answered .pipe _ nofun
  · have isOpen_read : made.table readEnd ≠ .nothing := by
      rw [Holdings.isOpen_iff, read_made]
      nofun
    have unbound_spawning := (spawns.spared spares_spawn lawful.append.1 isOpen_read).1
    have unbound_tail : Unbound readEnd tail := only.unbound fun _ tidying =>
      ⟨Call.rebinds_of_names (tidying.unnamed (by simpa using apart)), tidying.gains_eq⟩
    rw [Holdings.afterAll_cons,
      Holdings.slot_afterAll (unbound_append.2 ⟨unbound_spawning, unbound_tail⟩)]
    exact read_made
  · exact Nat.lt_of_lt_of_le (Nat.lt_succ_self _) (Holdings.made_le_afterAll made _)

/-! ## All stages -/

inductive Links : Object → List Image → List Name → Object → Prop
  | nil (source : Object) : Links source [] [] source
  | cons {source last : Object} {image : Image} {images : List Image} {pipe : Name}
    {pipes : List Name} (connects : image.Connects source (.writeEnd pipe))
    (others : Links (.readEnd pipe) images pipes last) :
    Links source (image :: images) (pipe :: pipes) last

structure Linked (holdings : Holdings) (events : List Event) (stages : List Stage)
    (source : Object) (pipes : List Name) (last : Object) : Prop where
  asked : List.Forall₂ (fun stage image => Image.IsFor image stage) stages
    (images holdings events .pending)
  links : Links source (images holdings events .pending) pipes last
  names : ∀ pipe ∈ pipes, pipe.maker = holdings.lineage ∧ holdings.made ≤ pipe.number
  distinct : pipes.Nodup
  apart : NoSelfDuplicate events

theorem Linked.nil (holdings : Holdings) (source : Object) :
    Linked holdings [] [] source [] source where
  asked := .nil
  links := .nil source
  names := nofun
  distinct := .nil
  apart := nofun

theorem Linked.cons {first between rest : List Event} {stage : Stage} {stages : List Stage}
    {pipes : List Name} {last : Object}
    (starts : Starts holdings first stage source (.writeEnd holdings.fresh))
    (made_lt : holdings.made < (holdings.afterAll first).made) (quiet : Only Call.IsQuiet between)
    (others : Linked ((holdings.afterAll first).afterAll between) rest stages
      (.readEnd holdings.fresh) pipes last) :
    Linked holdings (first ++ (between ++ rest)) (stage :: stages) source
      (holdings.fresh :: pipes) last := by
  obtain ⟨⟨image, became, isFor, connects⟩, -, apart⟩ := starts
  have became_all : images holdings (first ++ (between ++ rest)) .pending =
      image :: images ((holdings.afterAll first).afterAll between) rest .pending := by
    rw [images_append, images_append, became, quiet.images_eq]
    rfl
  have made_le := Holdings.made_le_afterAll (holdings.afterAll first) between
  have not_again : holdings.fresh ∉ pipes := by
    intro member
    have later := (others.names _ member).2
    rw [show holdings.fresh.number = holdings.made from rfl] at later
    omega
  refine ⟨?_, ?_, ?_, List.nodup_cons.2 ⟨not_again, others.distinct⟩,
    apart.append (quiet.noSelfDuplicate.append others.apart)⟩
  · rw [became_all]
    exact .cons isFor others.asked
  · rw [became_all]
    exact .cons connects others.links
  · intro pipe member
    rcases List.mem_cons.1 member with rfl | member
    · exact ⟨rfl, Nat.le_refl _⟩
    · obtain ⟨maker, later⟩ := others.names pipe member
      rw [Holdings.lineage_afterAll, Holdings.lineage_afterAll] at maker
      exact ⟨maker, by omega⟩

structure Ready (base holdings : Holdings) (input : Descriptor) (carried : Option Descriptor)
    (source : Object) : Prop where
  kept : ∀ descriptor, base.slot descriptor ≠ none →
    holdings.slot descriptor = base.slot descriptor
  free : ∀ readEnd ∈ carried, base.slot readEnd = none
  offers : holdings.Offers (carried.getD input) standardInput source
  isSealed : holdings.SealedApart

namespace Ready

variable {carried : Option Descriptor} {later : Holdings}

theorem isOpen (ready : Ready base holdings input carried source) {descriptor : Descriptor}
    (isOpen : base.slot descriptor ≠ none) : holdings.table descriptor ≠ .nothing := by
  rw [Holdings.isOpen_iff, ready.kept descriptor isOpen]
  exact isOpen

theorem source_isOpen (ready : Ready base holdings input carried source) :
    holdings.table (carried.getD input) ≠ .nothing := by
  obtain ⟨closes, held, -⟩ := ready.offers
  rw [Holdings.isOpen_iff, held]
  nofun

theorem not_mem (ready : Ready base holdings input carried source) {descriptor : Descriptor}
    (isOpen : base.slot descriptor ≠ none) : descriptor ∉ carried.toList :=
  fun member => isOpen (ready.free _ (by simpa using member))

theorem next {readEnd : Descriptor} {pipe : Name}
    (ready : Ready base holdings input carried source) (standing : base.slot standardInput ≠ none)
    (kept : ∀ descriptor, holdings.table descriptor ≠ .nothing →
      later.slot descriptor = holdings.slot descriptor)
    (free : holdings.slot readEnd = none) (held : later.slot readEnd = some ⟨.readEnd pipe, true⟩)
    (isSealed : later.SealedApart) (only : Only (IsClose carried.toList) events) :
    Ready base (later.afterAll events) input (some readEnd) (.readEnd pipe) := by
  have unbound : ∀ descriptor ∉ carried.toList, Unbound descriptor events := fun _ other =>
    only.unbound fun _ closes => ⟨Call.rebinds_of_names (closes.unnamed other), closes.gains_eq⟩
  have not_base : base.slot readEnd = none := by
    by_contra isOpen
    rw [← ready.kept readEnd isOpen] at isOpen
    exact isOpen free
  have not_carried : readEnd ∉ carried.toList := by
    intro member
    obtain rfl : carried = some readEnd := by simpa using member
    exact Holdings.isOpen_iff.1 ready.source_isOpen free
  refine ⟨fun descriptor isOpen => ?_, ?_, ⟨true, ?_, ?_⟩, isSealed.afterAll ?_⟩
  · rw [Holdings.slot_afterAll (unbound descriptor (ready.not_mem isOpen)),
      kept descriptor (ready.isOpen isOpen), ready.kept descriptor isOpen]
  · rintro _ ⟨⟩
    exact not_base
  · rw [Option.getD_some, Holdings.slot_afterAll (unbound readEnd not_carried), held]
  · rintro rfl
    exact absurd not_base standing
  · exact fun descriptor _ _ => only.unconnected (by simp [IsClose])

end Ready

namespace Pipeline

theorem startEarlier_cons {carried carried' : Option Descriptor} {stage : Stage}
    {stages : List Stage}
    (run : Runs (startEarlier input flags scheduling carried (stage :: stages)) events
      (.value (.ok carried'))) :
    ∃ starting closing others readEnd, events = starting ++ (closing ++ others) ∧
      Runs (startStage stage (carried.getD input) scheduling) starting (.value (.ok readEnd)) ∧
      Only (IsClose carried.toList) closing ∧
      Runs (startEarlier input flags scheduling (some readEnd) stages) others
        (.value (.ok carried')) := by
  unfold startEarlier at run
  split at run
  · obtain ⟨_, _, rfl, _, returns⟩ := runs_closeAll_bind run (by simp)
    obtain ⟨-, ⟨⟩⟩ := runs_done_iff.1 returns
  rw [Runs.bind_value_iff (steady_startStage ..).contained] at run
  obtain ⟨starting, rest, started, rfl, starts, run⟩ := run
  rcases started with error | readEnd
  · obtain ⟨_, _, rfl, tidies⟩ := runs_announce_immortal_bind run (by simp)
    obtain ⟨_, _, rfl, _, returns⟩ := runs_closeAll_bind tidies (by simp)
    obtain ⟨-, ⟨⟩⟩ := runs_done_iff.1 returns
  · obtain ⟨closing, others, rfl, only, run⟩ := runs_closeAll_bind run (by simp)
    exact ⟨starting, closing, others, readEnd, rfl, starts, only, run⟩

theorem startEarlier_linked {carried carried' : Option Descriptor} {stages : List Stage}
    (run : Runs (startEarlier input flags scheduling carried stages) events
      (.value (.ok carried')))
    (lawful : Lawful holdings.table events)
    (standing : ∀ descriptor ∈ [standardInput, standardOutput, input], base.slot descriptor ≠ none)
    (ready : Ready base holdings input carried source) :
    ∃ pipes last, Linked holdings events stages source pipes last ∧
      Ready base (holdings.afterAll events) input carried' last := by
  induction stages generalizing carried source holdings events with
  | nil =>
    obtain ⟨rfl, same⟩ := runs_done_iff.1 run
    cases same
    exact ⟨[], source, .nil holdings source, ready⟩
  | cons stage stages ih =>
    obtain ⟨starting, closing, others, readEnd, rfl, starts, only, run⟩ := startEarlier_cons run
    have standing_stage : ∀ descriptor ∈ [standardInput, standardOutput, carried.getD input],
        holdings.table descriptor ≠ .nothing := by
      intro descriptor member
      rcases (List.mem_append (s := [_, _])).1 member with member | member
      · exact ready.isOpen (standing descriptor (List.mem_append_left [input] member))
      · obtain rfl := List.mem_singleton.1 member
        exact ready.source_isOpen
    obtain ⟨started, free, held, made_lt⟩ :=
      startStage_started starts lawful.append.1 standing_stage ready.offers ready.isSealed
    have kept : ∀ descriptor, holdings.table descriptor ≠ .nothing →
        (holdings.afterAll starting).slot descriptor = holdings.slot descriptor :=
      fun descriptor isOpen =>
        Holdings.slot_afterAll (starts.spared spares_startStage lawful.append.1 isOpen).1 holdings
    have ready' := ready.next (standing standardInput (by simp)) kept free held
      (ready.isSealed.afterAll fun descriptor _ _ => started.unconnected descriptor) only
    have lawful_others := lawful.append.2.append.2
    rw [← Holdings.table_afterAll, ← Holdings.table_afterAll] at lawful_others
    obtain ⟨pipes, last, linked, ready_last⟩ := ih run lawful_others ready'
    have quiet : Only Call.IsQuiet closing := only.quiet (by simp [IsClose])
    refine ⟨holdings.fresh :: pipes, last, .cons started made_lt quiet linked, ?_⟩
    rw [Holdings.afterAll_append, Holdings.afterAll_append]
    exact ready_last

/-! ## The last stage -/

theorem becomeLast_replaced {pipeline : Pipeline} {program : String} {arguments : List String}
    (run : Runs (pipeline.becomeLast input output) events (.ended (.replaced program arguments))) :
    ∃ plan saved starting, ExecPlan.ofStage pipeline.last = .ok plan ∧
      events = .answered (.duplicateFrom standardOutput 3) saved :: starting ∧
      Runs (plan.execWith input output) starting (.ended (.replaced program arguments)) := by
  unfold becomeLast at run
  cases planned : ExecPlan.ofStage pipeline.last with
  | error error =>
    rw [planned] at run
    have tells : (announceNotFound false >>= fun _ => pure error).Quiet :=
      (quiet_announceNotFound _).bind fun _ => trivial
    cases (tells.no_attempts run).2
  | ok plan =>
    rw [planned] at run
    rcases (Runs.bind_iff (contained_execInPlace ..)).1 run with
      ⟨_, _, errno, rfl, -, returns⟩ | ⟨_, same, execs⟩
    · obtain ⟨-, ⟨⟩⟩ := runs_done_iff.1 returns
    cases same
    rcases (runs_perform_bind_iff rfl).1 execs with ⟨-, ⟨⟩⟩ | ⟨saved, starting, rfl, starts⟩
    refine ⟨plan, saved, starting, rfl, rfl, ?_⟩
    rcases (Runs.bind_iff (plan.contained_execWith ..)).1 starts with
      ⟨_, _, failure, rfl, -, restores⟩ | ⟨_, same, execs⟩
    · -- What follows a refusal never becomes a program.
      have tells : (announceNotFound failure.mortal >>= fun _ => pure failure.errno).Quiet :=
        (quiet_announceNotFound _).bind fun _ => trivial
      rcases saved with failed | copy
      · cases (tells.no_attempts restores).2
      · have quiet : (perform (.duplicateTo copy standardOutput) >>= fun _ => closeAll [copy] >>=
            fun _ => announceNotFound failure.mortal >>= fun _ => pure failure.errno).Quiet :=
          throughout_perform_bind rfl fun _ => (quiet_closeAll [copy]).bind fun _ => tells
        cases (quiet.no_attempts restores).2
    · cases same
      exact execs

theorem run_replaced {pipeline : Pipeline} {program : String} {arguments : List String}
    (run : Runs (pipeline.run input output flags scheduling) events
      (.ended (.replaced program arguments))) :
    ∃ starting lasting carried, events = starting ++ lasting ∧
      Runs (startEarlier input flags scheduling none pipeline.earlier) starting
        (.value (.ok carried)) ∧
      Runs (pipeline.becomeLast (carried.getD input) output) lasting
        (.ended (.replaced program arguments)) := by
  unfold Pipeline.run at run
  obtain ⟨starting, rest, started, rfl, starts, run⟩ :=
    Runs.bind_complete (steady_startEarlier ..) (by nofun) run
  cases started with
  | error failure => obtain ⟨-, ⟨⟩⟩ := runs_done_iff.1 run
  | ok carried =>
    rcases (Runs.bind_iff (contained_becomeLast ..)).1 run with
      ⟨_, _, error, rfl, -, tidies⟩ | ⟨_, same, becomes⟩
    · obtain ⟨_, _, rfl, _, returns⟩ := runs_closeAll_bind tidies nofun
      obtain ⟨-, ⟨⟩⟩ := runs_done_iff.1 returns
    · cases same
      exact ⟨starting, rest, carried, rfl, starts, becomes⟩

theorem run_linked {pipeline : Pipeline} {program : String} {arguments : List String}
    (run : Runs (pipeline.run input output flags scheduling) events
      (.ended (.replaced program arguments)))
    (lawful : Lawful holdings.table events)
    (standing : ∀ descriptor ∈ [standardInput, standardOutput, input, output],
      holdings.slot descriptor ≠ none)
    (offers_source : holdings.Offers input standardInput source)
    (offers_sink : holdings.Offers output standardOutput sink)
    (isSealed : holdings.SealedApart) :
    ∃ earlier image pipes last,
      images holdings events (.replaced program arguments) = earlier ++ [image] ∧
      List.Forall₂ (fun stage image => Image.IsFor image stage) pipeline.stages
        (earlier ++ [image]) ∧
      Links source earlier pipes last ∧
      image.Connects last (if output = standardInput then last else sink) ∧ pipes.Nodup ∧
      NoSelfDuplicate events := by
  obtain ⟨starting, lasting, carried, rfl, starts, becomes⟩ := run_replaced run
  have standing_earlier : ∀ descriptor ∈ [standardInput, standardOutput, input],
      holdings.slot descriptor ≠ none := fun descriptor member =>
    standing descriptor (List.mem_append_left [output] member)
  obtain ⟨pipes, last, linked, ready⟩ :=
    startEarlier_linked starts lawful.append.1 standing_earlier
      ⟨fun _ _ => rfl, nofun, offers_source, isSealed⟩
  obtain ⟨plan, saved, execing, planned, rfl, execs⟩ := becomeLast_replaced becomes
  have lawful_saving := lawful.append.2.1
  rw [← Holdings.table_afterAll] at lawful_saving
  let started := holdings.afterAll starting
  let saving := started.after (.answered (.duplicateFrom standardOutput 3) saved)
  have kept : ∀ descriptor, started.table descriptor ≠ .nothing →
      saving.slot descriptor = started.slot descriptor := fun descriptor isOpen =>
    Holdings.slot_after rfl (lawful_saving.not_mem_gains isOpen)
  have offers_last := ready.offers.of_slot_eq (kept _ ready.source_isOpen)
  have output_isOpen := standing output (by simp)
  have offers_sink_last := offers_sink.of_slot_eq
    ((kept output (ready.isOpen output_isOpen)).trans (ready.kept output output_isOpen))
  have isSealed_last : saving.SealedApart := ready.isSealed.after trivial
  obtain ⟨image, became, isFor_last, connects⟩ :=
    ExecPlan.connects_of_execWith execs planned offers_last offers_sink_last isSealed_last
  have apart_last := noSelfDuplicate_of_starts (execs.only plan.calls_execWith)
  refine ⟨images holdings starting .pending, image, pipes, last, ?_, ?_, linked.links, connects,
    linked.distinct, linked.apart.append (apart_last.answered _ saved nofun)⟩
  · rw [images_append, images_answered, became]
  · exact List.rel_append linked.asked (.cons isFor_last .nil)

end Pipeline

end PipelineShell
