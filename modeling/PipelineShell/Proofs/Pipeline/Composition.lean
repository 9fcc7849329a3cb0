import PipelineShell.Proofs.Pipeline.Delivery
import PipelineShell.Proofs.Pipeline.Failure

namespace PipelineShell

open PipelineShell.Action

variable {events : List Event} {input output : Descriptor} {scheduling : Scheduling}
  {flags : Flags}

def Unwaited (events : List Event) : Prop :=
  ∀ pid mode reply, .answered (.wait pid mode) reply ∉ events

theorem Unwaited.append {first second : List Event} (h : Unwaited first) (h' : Unwaited second) :
    Unwaited (first ++ second) := fun pid mode reply member =>
  (List.mem_append.1 member).elim (h pid mode reply) (h' pid mode reply)

theorem Unwaited.answered {request : Call} {rest : List Event} (h : Unwaited rest)
    (reply : request.Reply) (other : ∀ pid mode, request ≠ .wait pid mode) :
    Unwaited (.answered request reply :: rest) := by
  intro pid mode answer member
  rcases List.mem_cons.1 member with same | member
  · cases same
    exact other pid mode rfl
  · exact h pid mode answer member

theorem Unwaited.forked {rest : List Event} (h : Unwaited rest) (pid : Int) (child : List Event)
    (fate : Fate) : Unwaited (.forked pid child fate :: rest) := by
  intro pid mode answer member
  rcases List.mem_cons.1 member with same | member
  · cases same
  · exact h pid mode answer member

theorem Only.unwaited {allowed : Call → Prop} (only : Only allowed events)
    (other : ∀ pid mode, ¬ allowed (.wait pid mode)) : Unwaited events :=
  fun pid mode _ member => other pid mode (only.of_mem member)

theorem ExecPlan.confirm_unwaited {plan : ExecPlan} {channel : Channel} {child pid : Int}
    (run : Runs (plan.confirm channel child) events (.value (.ok pid))) : Unwaited events := by
  rcases (runs_call_iff rfl).1 run with ⟨-, ⟨⟩⟩ | ⟨closed, rest, rfl, awaits⟩
  change Runs (Channel.await channel.watcher >>= _) rest _ at awaits
  rw [Runs.bind_value_iff (Channel.steady_await _).contained] at awaits
  obtain ⟨awaiting, tail, answer, rfl, awaits, returns⟩ := awaits
  cases answer with
  | some errno =>
    rcases (runs_perform_bind_iff rfl).1 returns with ⟨-, ⟨⟩⟩ | ⟨reply, _, rfl, last⟩
    obtain ⟨-, ⟨⟩⟩ := runs_done_iff.1 last
  | none =>
    obtain ⟨rfl, -⟩ := runs_done_iff.1 returns
    have only := awaits.only (Channel.calls_await channel.watcher)
    rw [List.append_nil]
    exact (only.unwaited nofun).answered closed nofun

theorem spawn_unwaited {plan : ExecPlan} {pid : Int}
    (run : Runs (spawn plan input output) events (.value (.ok pid))) : Unwaited events := by
  rcases spawn_parts run with ⟨_, ⟨⟩, -⟩ | ⟨_, _, _, _, ⟨⟩, -, -⟩ |
    ⟨readEnd, writeEnd, pid', child, fate, rest, rfl, -, inParent⟩
  exact ((ExecPlan.confirm_unwaited inParent).forked pid' child fate).answered _ nofun

theorem startStage_unwaited {stage : Stage} {readEnd : Descriptor}
    (run : Runs (startStage stage input .concurrent) events (.value (.ok readEnd))) :
    Unwaited events := by
  unfold startStage at run
  cases planned : ExecPlan.ofStage stage with
  | error error =>
    rw [planned] at run
    obtain ⟨-, ⟨⟩⟩ := runs_done_iff.1 run
  | ok plan =>
    rw [planned] at run
    rcases (runs_perform_bind_iff rfl).1 run with ⟨-, ⟨⟩⟩ | ⟨reply, rest, rfl, spawns⟩
    rcases reply with errno | ⟨readEnd', writeEnd⟩
    · obtain ⟨-, ⟨⟩⟩ := runs_done_iff.1 spawns
    dsimp only at spawns
    rw [Runs.bind_value_iff (steady_spawn ..).contained] at spawns
    obtain ⟨spawning, tail, spawned, rfl, spawns, closes⟩ := spawns
    rcases spawned with error | pid
    · obtain ⟨_, _, rfl, -, returns⟩ := runs_closeAll_bind closes (by simp)
      obtain ⟨-, ⟨⟩⟩ := runs_done_iff.1 returns
    obtain ⟨closing, rest, rfl, only, returns⟩ := runs_closeAll_bind closes (by simp)
    obtain ⟨rfl, -⟩ := runs_done_iff.1 returns
    rw [List.append_nil]
    have closing_unwaited : Unwaited closing := only.unwaited (by simp [IsClose])
    exact ((spawn_unwaited spawns).append closing_unwaited).answered _ (by simp)

namespace Pipeline

theorem startEarlier_unwaited {carried carried' : Option Descriptor} {stages : List Stage}
    (run : Runs (startEarlier input flags .concurrent carried stages) events
      (.value (.ok carried'))) : Unwaited events := by
  induction stages generalizing carried events with
  | nil =>
    obtain ⟨rfl, -⟩ := runs_done_iff.1 run
    nofun
  | cons stage stages ih =>
    obtain ⟨starting, closing, others, readEnd, rfl, starts, only, run⟩ := startEarlier_cons run
    have closing_unwaited : Unwaited closing := only.unwaited (by simp [IsClose])
    exact (startStage_unwaited starts).append (closing_unwaited.append (ih run))

/-- The process forks one child for each of the stages, which becomes its program. Under sequential
scheduling it waits for that program to end before it goes on, and otherwise for none. -/
structure Paced (scheduling : Scheduling) (stages : List Stage) (events : List Event) : Prop where
  launched : ∃ parts rest, LaunchedAll scheduling stages parts ∧ events = parts.flatten ++ rest ∧
    children rest = []
  unwaited : scheduling = .concurrent → Unwaited events

theorem run_paced {pipeline : Pipeline} {program : String} {arguments : List String} {table : Table}
    (run : Runs (pipeline.run input output flags scheduling) events
      (.ended (.replaced program arguments)))
    (lawful : Lawful table events)
    (standing : ∀ descriptor ∈ [standardInput, standardOutput, input],
      table descriptor ≠ .nothing) : Paced scheduling pipeline.earlier events := by
  constructor
  · have begun : ¬ (flags.error = true ∧ pipeline.earlier ≠ []) := by
      rintro ⟨failed, several⟩
      cases (run_aborts run failed several).2
    cases run_cases run nofun (clear_or_alone begun) lawful standing with
    | replaced all split childless => exact ⟨_, _, all, split, childless⟩
  · rintro rfl
    obtain ⟨starting, lasting, carried, rfl, starts, becomes⟩ := run_replaced run
    obtain ⟨plan, saved, execing, -, rfl, execs⟩ := becomeLast_replaced becomes
    have only := execs.only plan.calls_execWith
    exact (startEarlier_unwaited starts).append ((only.unwaited nofun).answered saved nofun)

structure Started (pipeline : Pipeline) (input : Descriptor) (sink : Object)
    (scheduling : Scheduling) (events : List Event) (programs : List Image) (pipes : List Name) :
    Prop where
  asked : List.Forall₂ (fun stage image => Image.IsFor image stage) pipeline.stages programs
  inputs : programs.map (·.holds standardInput) =
    (Object.original input :: pipes.map .readEnd).map some
  outputs : programs.map (·.holds standardOutput) =
    (pipes.map Object.writeEnd ++ [sink]).map some
  others : ∀ image ∈ programs, ∀ descriptor, descriptor ≠ standardInput →
    descriptor ≠ standardOutput → ∀ object, image.holds descriptor = some object →
      ∃ other, object = .original other
  distinct : pipes.Nodup
  count : pipes.length + 1 = pipeline.length
  writer : ∀ (i j : Nat) (pipe : Name) (image : Image), pipes[i]? = some pipe →
    programs[j]? = some image →
      ((∃ descriptor, image.holds descriptor = some (.writeEnd pipe)) ↔ j = i)
  reader : ∀ (i j : Nat) (pipe : Name) (image : Image), pipes[i]? = some pipe →
    programs[j]? = some image →
      ((∃ descriptor, image.holds descriptor = some (.readEnd pipe)) ↔ j = i + 1)
  apart : NoSelfDuplicate events
  paced : Paced scheduling pipeline.earlier events

/-- The output is standard input, in the place of which the last program has something else to read
by the time it is connected to its output. -/
def Overwrites (pipeline : Pipeline) (input output : Descriptor) : Prop :=
  output = standardInput ∧ (input ≠ standardInput ∨ pipeline.earlier ≠ [])

section Sink

variable {pipeline : Pipeline} {images : List Image} {pipes : List Name}

theorem outlet_of_overwrites (wired : Wired images pipes input output)
    (overwrites : pipeline.Overwrites input output) :
    images.getLast?.bind (·.holds standardInput) = some (outlet pipes input output) := by
  have last := congrArg List.getLast? wired.inputs
  rw [List.getLast?_map, List.getLast?_map, List.getLast?_cons, List.getLast?_map] at last
  rw [outlet, if_pos overwrites.1]
  cases found : images.getLast? with
  | none => simp [found] at last
  | some image => simpa [found] using last

theorem outlet_of_not_overwrites (count : pipes.length + 1 = pipeline.length)
    (proper : ¬ pipeline.Overwrites input output) : outlet pipes input output = .original output := by
  by_cases is_input : output = standardInput
  · have same : input = standardInput := by
      by_contra other
      exact proper ⟨is_input, .inl other⟩
    have alone : pipeline.earlier = [] := by
      by_contra several
      exact proper ⟨is_input, .inr several⟩
    have no_pipes : pipes = [] := by
      rw [length, alone] at count
      exact List.length_eq_zero_iff.1 (Nat.succ.inj count)
    rw [outlet, if_pos is_input, no_pipes, same, is_input]
    rfl
  · exact if_neg is_input

end Sink

open Dataflow in
/-- A pipeline that has started connects its programs in a row from its input to its output, and
they compute the composition of their functions, if what they read and what they write are two
things. Standard input is connected before standard output, so an output that is standard input may
be overwritten by then: the last program writes what it reads in this case. -/
theorem composes (pipeline : Pipeline) (input output : Descriptor) (flags : Flags)
    (scheduling : Scheduling) (isOpen closes : Descriptor → Bool) (events : List Event)
    (program : String) (arguments : List String)
    (run : Runs (pipeline.run input output flags scheduling) events
      (.ended (.replaced program arguments)))
    (lawful : Lawful (Table.start isOpen) events)
    (standing : ∀ descriptor ∈ [standardInput, standardOutput, input, output],
      isOpen descriptor = true)
    (inherited : ∀ descriptor ∈ [standardInput, standardOutput], closes descriptor = false) :
    let programs := images (.start isOpen closes) events (.replaced program arguments)
    ∃ pipes sink, pipeline.Started input sink scheduling events programs pipes ∧
      (pipeline.Overwrites input output →
        programs.getLast?.bind (·.holds standardInput) = some sink) ∧
      (¬ pipeline.Overwrites input output → sink = .original output ∧
        ∀ (functions : List (Bytes → Bytes)) (capacity : Nat) (bytes : Bytes),
          functions.length = pipeline.length → 0 < capacity →
          (scheduling = .sequential → ∀ i, 0 < i → i < pipeline.length →
            (through (functions.take i) bytes).length ≤ capacity) →
          Computes ⟨programs, functions, input, output, capacity, scheduling⟩ bytes
            (through functions bytes)) := by
  intro programs
  obtain ⟨pipes, wired, asked, apart⟩ := run_wired run lawful standing inherited
  have count : pipes.length + 1 = pipeline.length := by
    rw [← wired.length_eq, ← asked.length_eq, length_stages]
  have standing_table : ∀ descriptor ∈ [standardInput, standardOutput, input],
      Table.start isOpen descriptor ≠ .nothing := by
    intro descriptor member
    have isOpen := standing descriptor (List.mem_append_left [output] member)
    simp [Table.start, isOpen]
  refine ⟨pipes, outlet pipes input output, ⟨asked, wired.inputs, wired.outputs, wired.others,
    wired.distinct, count, ?_, ?_, apart, run_paced run lawful standing_table⟩, ?_, ?_⟩
  · exact fun _ _ _ _ at_i at_j => wired.holds_writeEnd_iff at_i at_j
  · exact fun _ _ _ _ at_i at_j => wired.holds_readEnd_iff at_i at_j
  · exact outlet_of_overwrites wired
  · intro proper
    have outlet_eq := outlet_of_not_overwrites count proper
    refine ⟨outlet_eq, fun functions capacity bytes enough positive fits => ?_⟩
    let net : Network := ⟨programs, functions, input, output, capacity, scheduling⟩
    have row : Row net pipes := ⟨wired, outlet_eq⟩
    have all : net.full bytes (pipes.length + 1) = through functions bytes := by
      show through (functions.take (pipes.length + 1)) bytes = _
      rw [count, ← enough, List.take_length]
    rw [← all]
    refine row.computes positive fun sequential i below => ?_
    exact fits sequential (i + 1) (Nat.succ_pos i) (by omega)

def firstOfTwo : List Event := [
  .answered (.close 6) (.ok ()),
  .answered (.duplicateTo 4 standardOutput) (.ok ()),
  .answered (.setSignal Signal.interrupt.number false) (.ok ()),
  .answered (.setSignal Signal.brokenPipe.number false) (.ok ())]

def twoRun (output : Descriptor) : List Event := [
  .answered .pipe (.ok (3, 4)),
  .answered .pipe (.ok (6, 7)),
  .forked 100 firstOfTwo (.replaced "a" ["a"]),
  .answered (.close 7) (.ok ()),
  .answered (.read 6 4) (.ok .empty),
  .answered (.close 6) (.ok ()),
  .answered (.close 4) (.ok ()),
  .answered (.wait 100 .block) (.ok (.exited 0)),
  .answered (.duplicateFrom standardOutput 3) (.ok 4),
  .answered (.duplicateTo 3 standardInput) (.ok ()),
  .answered (.duplicateTo output standardOutput) (.ok ()),
  .answered (.setSignal Signal.interrupt.number false) (.ok ()),
  .answered (.setSignal Signal.brokenPipe.number false) (.ok ())]

def two : Pipeline := ⟨[⟨[['a']]⟩], ⟨[['b']]⟩⟩

theorem runs_twoRun (member : output ∈ [standardInput, 5]) :
    Runs (two.run standardInput output {} .sequential) (twoRun output)
      (.ended (.replaced "b" ["b"])) := by
  simp only [List.mem_cons, List.not_mem_nil, or_false] at member
  rcases member with rfl | rfl
  all_goals
    refine .call _ rfl <| .call _ rfl <| .fork 100 ?_ ?_
    · exact .call _ rfl <| .call _ rfl <| .call _ rfl <| .call _ rfl <| .exec "a" ["a"] _
    · exact .call _ rfl <| .call _ rfl <| .call _ rfl <| .call _ rfl <| .call _ rfl <|
        .call _ rfl <| .call _ rfl <| .call _ rfl <| .call _ rfl <| .call _ rfl <|
        .exec "b" ["b"] _

theorem lawful_twoRun : Lawful (Table.start (· ∈ [0, 1, 2, 5])) (twoRun output) := by
  have finished : Finished 7 firstOfTwo (.replaced "a" ["a"]) :=
    ⟨.inl (by simp), by simp [Accepts, firstOfTwo]⟩
  refine ⟨?_, ?_, ?_, ?_, ?_⟩
  · simp [Event.Lawful, Call.gains, Call.leastGain, Table.start]
  · simp [ReportsArrive]
  · simp [Event.Lawful, Call.gains, Call.leastGain, Table.start, Table.after]
  · rintro _ _ _ _ _ _ _ ⟨⟩ - -
    exact fun _ => ⟨[], rfl, fun _ _ => ⟨rfl, finished⟩, trivial⟩
  · simp [firstOfTwo, Lawful, Event.Lawful, Call.gains, Call.leastGain, Table.after,
      ReportsArrive]

theorem composes_reverse_take :
    let programs := images (.start (· ∈ [0, 1, 2, 5]) fun _ => false) (twoRun 5)
      (.replaced "b" ["b"])
    (∃ pipes, two.Started standardInput (.original 5) .sequential (twoRun 5) programs pipes) ∧
      Dataflow.Computes ⟨programs, [List.reverse, List.take 1], standardInput, 5, 2, .sequential⟩
        [10, 20] [20] := by
  obtain ⟨pipes, sink, started, -, proper⟩ := composes two standardInput 5 {} .sequential
    (· ∈ [0, 1, 2, 5]) (fun _ => false) (twoRun 5) "b" ["b"] (runs_twoRun (by decide)) lawful_twoRun
    (by decide) fun _ _ => rfl
  obtain ⟨rfl, computes⟩ := proper (by rintro ⟨⟨⟩, -⟩)
  refine ⟨⟨pipes, started⟩, computes [List.reverse, List.take 1] 2 [10, 20] rfl (by decide) ?_⟩
  intro _ i positive below
  obtain rfl : i = 1 := Nat.le_antisymm (Nat.le_of_lt_succ below) positive
  decide

/-- The last program does not always write the output of the pipeline. -/
theorem output_may_be_overwritten :
    ¬ ∀ (pipeline : Pipeline) (input output : Descriptor) (flags : Flags)
      (scheduling : Scheduling) (isOpen closes : Descriptor → Bool) (events : List Event)
      (program : String) (arguments : List String),
      Runs (pipeline.run input output flags scheduling) events
        (.ended (.replaced program arguments)) →
      Lawful (Table.start isOpen) events →
      (∀ descriptor ∈ [standardInput, standardOutput, input, output],
        isOpen descriptor = true) →
      (∀ descriptor ∈ [standardInput, standardOutput], closes descriptor = false) →
      (images (.start isOpen closes) events (.replaced program arguments)).getLast?.bind
        (·.holds standardOutput) = some (.original output) := by
  intro claim
  have holds := claim two standardInput standardInput {} .sequential (· ∈ [0, 1, 2, 5])
    (fun _ => false) (twoRun standardInput) "b" ["b"] (runs_twoRun (by decide)) lawful_twoRun
    (by decide) fun _ _ => rfl
  revert holds
  decide

end Pipeline

end PipelineShell
