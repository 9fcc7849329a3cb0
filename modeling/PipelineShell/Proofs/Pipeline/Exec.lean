import PipelineShell.Pipeline.Run
import PipelineShell.Proofs.Channel

namespace PipelineShell

open PipelineShell.Action

/-! ## Planning -/

namespace Stage

structure Asks (stage : Stage) (program : Word) (arguments : List String) : Prop where
  program_eq : stage.args.head? = some program
  arguments_eq : stage.args.map Word.toString = arguments
  clean : ∀ arg ∈ stage.args, '\x00' ∉ arg

inductive Unusable (stage : Stage) : RunError → Prop
  | empty (h : stage.args = []) : Unusable stage .emptyStage
  | nul {before after : List Word} {first rest : Word}
    (args : stage.args = before ++ (first ++ '\x00' :: rest) :: after)
    (clean_before : ∀ arg ∈ before, '\x00' ∉ arg) (clean_first : '\x00' ∉ first) :
    Unusable stage (.nul (Word.byteLength first))

end Stage

theorem Word.nulPosition?_eq_none {word : Word} : word.nulPosition? = none ↔ '\x00' ∉ word := by
  simp [nulPosition?]

theorem Word.nulPosition?_append {first rest : Word} (clean : '\x00' ∉ first) :
    nulPosition? (first ++ '\x00' :: rest) = some (byteLength first) := by
  have before : ∀ c ∈ first, decide (c ≠ '\x00') = true := fun c member =>
    decide_eq_true fun same => clean (same ▸ member)
  rw [nulPosition?, if_pos (by simp), List.takeWhile_append_of_pos before]
  simp

theorem Word.nulPosition?_eq_some {word : Word} {position : Nat}
    (h : word.nulPosition? = some position) :
    ∃ first rest : Word, word = first ++ '\x00' :: rest ∧ '\x00' ∉ first ∧
      Word.byteLength first = position := by
  have member : '\x00' ∈ word := by
    by_contra clean
    rw [nulPosition?_eq_none.2 clean] at h
    cases h
  obtain ⟨first, rest, rfl, clean⟩ := List.eq_append_cons_of_mem member
  exact ⟨first, rest, rfl, clean, Option.some.inj ((nulPosition?_append clean).symm.trans h)⟩

namespace ExecPlan

theorem ofStage_ok {stage : Stage} {plan : ExecPlan} (h : ofStage stage = .ok plan) :
    stage.Asks plan.program plan.arguments := by
  unfold ofStage Stage.program? Stage.execForm at h
  cases first : stage.args.head? with
  | none => simp [first] at h
  | some program =>
    cases nul : stage.args.findSome? Word.nulPosition? with
    | some position => simp [first, nul] at h
    | none =>
      simp only [first, nul, Except.ok.injEq] at h
      subst h
      refine ⟨first, rfl, fun arg member => ?_⟩
      exact Word.nulPosition?_eq_none.1 (List.findSome?_eq_none_iff.1 nul arg member)

theorem ofStage_error {stage : Stage} {error : RunError} (h : ofStage stage = .error error) :
    stage.Unusable error := by
  unfold ofStage Stage.program? Stage.execForm at h
  cases first : stage.args.head? with
  | none =>
    simp only [first, Except.error.injEq] at h
    exact h ▸ .empty (List.head?_eq_none_iff.1 first)
  | some program =>
    cases nul : stage.args.findSome? Word.nulPosition? with
    | none => simp [first, nul] at h
    | some position =>
      simp only [first, nul, Except.error.injEq] at h
      obtain ⟨before, arg, after, args, found, clean⟩ := List.findSome?_eq_some_iff.1 nul
      obtain ⟨first, rest, rfl, clean_first, rfl⟩ := Word.nulPosition?_eq_some found
      exact h ▸ .nul args (fun arg member => Word.nulPosition?_eq_none.1 (clean arg member))
        clean_first

end ExecPlan

/-! ## Connecting the streams -/

variable {events : List Event} {input output : Descriptor}

inductive IsStart (input output : Descriptor) : Call → Prop
  | input (apart : input ≠ standardInput) :
    IsStart input output (.duplicateTo input standardInput)
  | output (apart : output ≠ standardOutput) :
    IsStart input output (.duplicateTo output standardOutput)
  | signal (signal : Nat) (ignored : Bool) : IsStart input output (.setSignal signal ignored)
  | exec (program : String) (arguments : List String) :
    IsStart input output (.exec program arguments)

/-- The system has refused to connect a stream or to execute the program, with this error. -/
inductive Refused (input output : Descriptor) (events : List Event) (errno : Errno) : Prop
  | input (h : .answered (.duplicateTo input standardInput) (.error errno) ∈ events)
  | output (h : .answered (.duplicateTo output standardOutput) (.error errno) ∈ events)
  | exec {program : String} {arguments : List String}
    (h : .answered (.exec program arguments) errno ∈ events)

theorem Refused.append_left {errno : Errno} (refused : Refused input output events errno)
    (before : List Event) : Refused input output (before ++ events) errno := by
  cases refused with
  | input h => exact .input (List.mem_append_right _ h)
  | output h => exact .output (List.mem_append_right _ h)
  | exec h => exact .exec (List.mem_append_right _ h)

theorem Refused.append_right {errno : Errno} (refused : Refused input output events errno)
    (after : List Event) : Refused input output (events ++ after) errno := by
  cases refused with
  | input h => exact .input (List.mem_append_left _ h)
  | output h => exact .output (List.mem_append_left _ h)
  | exec h => exact .exec (List.mem_append_left _ h)

theorem calls_attach {allowed : Call → Prop} {source target : Descriptor}
    (ok : source ≠ target → allowed (.duplicateTo source target)) :
    (attach source target).Calls allowed := by
  unfold attach
  split
  · trivial
  · exact calls_perform (ok ‹_›) rfl

theorem calls_attachStreams : (attachStreams input output).Calls (IsStart input output) := by
  refine (calls_attach .input).bind fun attached => ?_
  cases attached with
  | error errno => trivial
  | ok _ => exact calls_attach .output

theorem attach_error {source target : Descriptor} {errno : Errno}
    (run : Runs (attach source target) events (.value (.error errno))) :
    .answered (.duplicateTo source target) (.error errno) ∈ events := by
  unfold attach at run
  split at run
  · obtain ⟨-, ⟨⟩⟩ := runs_done_iff.1 run
  · rcases (runs_call_iff rfl).1 run with ⟨-, ⟨⟩⟩ | ⟨reply, _, rfl, rest⟩
    obtain ⟨rfl, ⟨⟩⟩ := runs_done_iff.1 rest
    simp

theorem attachStreams_error {errno : Errno}
    (run : Runs (attachStreams input output) events (.value (.error errno))) :
    Refused input output events errno := by
  unfold attachStreams at run
  rw [Runs.bind_value_iff (steady_attach ..).contained] at run
  obtain ⟨first, second, attached, rfl, run_input, rest⟩ := run
  rcases attached with errno | ⟨⟩
  · obtain ⟨rfl, ⟨⟩⟩ := runs_done_iff.1 rest
    exact (Refused.input (attach_error run_input)).append_right _
  · exact (Refused.output (attach_error rest)).append_left _

/-! ## The message -/

theorem runs_announce_bind {β : Type} {mortal : Bool} {f : Unit → Action β} {outcome : Outcome β}
    (run : Runs (announceNotFound mortal >>= f) events outcome)
    (complete : outcome ≠ .ended .pending) :
    ∃ reply rest,
      events = .answered (.write standardOutput commandNotFound.toUTF8) reply :: rest ∧
        (Runs (f ()) rest outcome ∨
          mortal = true ∧ reply = .error .brokenPipe ∧ rest = [] ∧
            outcome = .ended (.killed Signal.brokenPipe.number)) := by
  rcases (runs_call_iff rfl).1 run with ⟨-, rfl⟩ | ⟨reply, rest, rfl, returns⟩
  · exact absurd rfl complete
  refine ⟨reply, rest, rfl, ?_⟩
  rcases reply with errno | count
  · by_cases dies : mortal = true ∧ errno = .brokenPipe
    · obtain ⟨rfl, rfl⟩ := dies
      cases returns with
      | pending => exact absurd rfl complete
      | die => exact .inr ⟨rfl, rfl, rfl, rfl⟩
      | call reply => exact nomatch (reply : Empty)
    · exact .inl (by simpa [Action.bind, dies] using returns)
  · exact .inl returns

theorem runs_announce_immortal_bind {β : Type} {f : Unit → Action β} {outcome : Outcome β}
    (run : Runs (announceNotFound false >>= f) events outcome)
    (complete : outcome ≠ .ended .pending) :
    ∃ reply rest,
      events = .answered (.write standardOutput commandNotFound.toUTF8) reply :: rest ∧
        Runs (f ()) rest outcome := by
  obtain ⟨reply, rest, rfl, returns | ⟨⟨⟩, -⟩⟩ := runs_announce_bind run complete
  exact ⟨reply, rest, rfl, returns⟩

/-! ## Becoming the program -/

namespace ExecPlan

theorem calls_exec (plan : ExecPlan) : plan.exec.Calls (IsStart input output) :=
  calls_perform_bind (.signal ..) rfl fun _ => calls_perform_bind (.signal ..) rfl fun _ =>
    calls_perform_bind (.exec ..) rfl fun _ => trivial

theorem calls_execWith (plan : ExecPlan) :
    (plan.execWith input output).Calls (IsStart input output) := by
  refine calls_attachStreams.bind fun attached => ?_
  cases attached with
  | error errno => trivial
  | ok _ => exact plan.calls_exec

/-- What a process comes to that is to become a program. A broken pipe ends it from then on if the
system has taken note of that. -/
inductive Execs (plan : ExecPlan) (input output : Descriptor) (events : List Event) :
    Outcome ExecFailure → Prop
  | pending : Execs plan input output events (.ended .pending)
  | replaced : Execs plan input output events
    (.ended (.replaced plan.program.toString plan.arguments))
  | refused {failure : ExecFailure} (h : Refused input output events failure.errno)
    (reset : failure.mortal = true →
      .answered (.setSignal Signal.brokenPipe.number false) (.ok ()) ∈ events) :
    Execs plan input output events (.value failure)

theorem Execs.append_left {plan : ExecPlan} {outcome : Outcome ExecFailure}
    (execs : plan.Execs input output events outcome) (before : List Event) :
    plan.Execs input output (before ++ events) outcome := by
  cases execs with
  | pending => exact .pending
  | replaced => exact .replaced
  | refused h reset =>
    exact .refused (h.append_left before) fun mortal => List.mem_append_right _ (reset mortal)

theorem runs_exec {plan : ExecPlan} {outcome : Outcome ExecFailure}
    (run : Runs plan.exec events outcome) : plan.Execs input output events outcome := by
  rcases (runs_call_iff rfl).1 run with ⟨rfl, rfl⟩ | ⟨reply, _, rfl, second⟩
  · exact .pending
  rcases (runs_call_iff rfl).1 second with ⟨rfl, rfl⟩ | ⟨restored, _, rfl, third⟩
  · exact .pending
  rcases runs_exec_iff.1 third with ⟨rfl, rfl⟩ | ⟨rfl, rfl⟩ | ⟨errno, _, rfl, returns⟩
  · exact .pending
  · exact .replaced
  · obtain ⟨rfl, rfl⟩ := runs_done_iff.1 returns
    refine .refused (.exec (.tail _ (.tail _ (.head _)))) fun mortal => ?_
    rcases restored with errno | ⟨⟩
    · cases mortal
    · exact .tail _ (.head _)

theorem runs_execWith {plan : ExecPlan} {outcome : Outcome ExecFailure}
    (run : Runs (plan.execWith input output) events outcome) :
    plan.Execs input output events outcome := by
  rcases (Runs.bind_iff (steady_attachStreams ..).contained).1 run with
    ⟨first, second, attached, rfl, run_attach, rest⟩ | ⟨fate, rfl, run_attach⟩
  · rcases attached with errno | ⟨⟩
    · obtain ⟨rfl, rfl⟩ := runs_done_iff.1 rest
      exact .refused ((attachStreams_error run_attach).append_right _) nofun
    · exact (runs_exec rest).append_left first
  · obtain rfl := run_attach.pending_of_steady (steady_attachStreams ..)
    exact .pending

/-! ## The child's part of a start -/

/-- What the parent can learn of a child that is to become a program. -/
structure Entered (plan : ExecPlan) (channel : Channel) (input output : Descriptor)
    (events : List Event) (fate : Fate) (told : Option Errno) : Prop where
  closes_first : ∀ first ∈ events.head?, ∃ reply, first = .answered (.close channel.watcher) reply
  tells : Tells channel.reporter events fate told
  short : ∀ write ∈ writes events, write.2.size ≤ 4
  replaced : told = none → fate ≠ .pending →
    fate = .replaced plan.program.toString plan.arguments
  refused : ∀ errno, told = some errno → Refused input output events errno ∧
    ∀ program arguments, fate ≠ .replaced program arguments

theorem runs_enter {α : Type} {plan : ExecPlan} {channel : Channel} {fate : Fate}
    (run : Runs (plan.enter channel input output : Action α) events (.ended fate))
    (apart : ∀ other ∈ [standardInput, standardOutput, input, output, channel.watcher],
      other ≠ channel.reporter) : ∃ told, plan.Entered channel input output events fate told := by
  unfold enter at run
  rcases (runs_call_iff rfl).1 run with ⟨rfl, ended⟩ | ⟨reply, rest, rfl, starts⟩
  · cases ended
    exact ⟨none, by simp, .nothing (untouched_nil _), by simp, fun _ live => absurd rfl live, by simp⟩
  -- Up to its report, if there is one, the child leaves the channel alone.
  have untouched : ∀ {starting}, Only (IsStart input output) starting →
      Untouched channel.reporter (.answered (.close channel.watcher) reply :: starting) := by
    intro starting only
    have watcher_apart := apart channel.watcher (by simp)
    refine untouched_answered.2 ⟨by simpa [Call.names] using watcher_apart, ?_⟩
    refine only.untouched fun request start => ?_
    cases start with
    | input => simpa [Call.names] using ⟨apart _ (by simp), apart _ (by simp)⟩
    | output => simpa [Call.names] using ⟨apart _ (by simp), apart _ (by simp)⟩
    | signal | exec => rfl
  have silent : ∀ {starting}, Only (IsStart input output) starting → writes starting = [] :=
    fun only => only.writes_eq fun _ _ start => by cases start
  rcases (Runs.bind_iff (plan.contained_execWith ..)).1 starts with
    ⟨starting, reporting, failure, rfl, execs, reports⟩ | ⟨_, ended, execs⟩
  · have only := execs.only plan.calls_execWith
    have reports := Channel.runs_report_exit reports
    cases runs_execWith execs with
    | refused refused =>
      refine ⟨some failure.errno, ?_, reports.tells.prepend (untouched only), ?_, by simp, ?_⟩
      · rintro _ ⟨⟩
        exact ⟨reply, rfl⟩
      · simpa [writes_answered, silent only] using reports.short
      · rintro _ ⟨⟩
        refine ⟨(refused.append_right reporting).append_left [_], ?_⟩
        rintro program arguments rfl
        rcases reports.ended with ⟨⟨⟩⟩ | ⟨_, ⟨⟩⟩
  · cases ended
    have only := execs.only plan.calls_execWith
    refine ⟨none, ?_, .nothing (untouched only), by simp [writes_answered, silent only],
      fun _ live => ?_, by simp⟩
    · rintro _ ⟨⟩
      exact ⟨reply, rfl⟩
    · cases runs_execWith execs with
      | pending => exact absurd rfl live
      | replaced => rfl

end ExecPlan

end PipelineShell
