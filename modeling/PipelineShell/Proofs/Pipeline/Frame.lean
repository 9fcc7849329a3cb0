import PipelineShell.Proofs.Pipeline.Exec

namespace PipelineShell

open PipelineShell.Action

variable {α : Type} {descriptor : Descriptor}

namespace Action

theorem Calls.avoids {allowed : Call → Prop} {action : Action α} (calls : action.Calls allowed)
    (unnamed : ∀ request, allowed request → request.names descriptor = false) :
    action.Avoids descriptor fun _ => True := by
  induction action with
  | done value => trivial
  | exhausted => trivial
  | call request next ih =>
    refine ⟨?_, fun reply _ => ih reply (calls reply).2⟩
    cases request with
    | duplicateTo | duplicateFrom | close | read | write | seek | isTerminal | descriptorInfo =>
      exact unnamed _ (calls (.error .noEntry)).1.1
    | print | flush => exact unnamed _ (calls (.error .nulInPath)).1.1
    | _ => rfl

theorem avoids_closeAll {descriptors : List Descriptor} (other : descriptor ∉ descriptors) :
    (closeAll descriptors).Avoids descriptor fun _ => True :=
  (calls_closeAll descriptors).avoids fun _ closes => closes.unnamed other

theorem avoids_exit {code : Nat} {post : α → Prop} : (exit code).Avoids descriptor post :=
  ⟨rfl, nofun⟩

end Action

namespace Channel

theorem avoids_create : create.Avoids descriptor fun created =>
    ∀ channel, created = .ok channel →
      channel.watcher ≠ descriptor ∧ channel.reporter ≠ descriptor := by
  refine avoids_perform_bind rfl fun reply ungiven => ?_
  rcases reply with errno | ⟨readEnd, writeEnd⟩
  · exact nofun
  · rintro _ ⟨⟩
    simpa [Call.gains, eq_comm] using ungiven

theorem avoids_report {reporter : Descriptor} {errno : Errno} (other : descriptor ≠ reporter) :
    (report reporter errno).Avoids descriptor fun _ => True :=
  (calls_report reporter errno).avoids fun _ reports => reports.unnamed other

theorem avoids_await {watcher : Descriptor} (other : descriptor ≠ watcher) :
    (await watcher).Avoids descriptor fun _ => True :=
  (calls_await watcher).avoids fun _ awaits => awaits.unnamed other

end Channel

theorem avoids_announceNotFound {mortal : Bool} (other : descriptor ≠ standardOutput) :
    (announceNotFound mortal).Avoids descriptor fun _ => True :=
  (calls_announceNotFound mortal).avoids fun _ same => by
    subst same
    simpa [Call.names] using other.symm

structure Apart (descriptor input output : Descriptor) : Prop where
  not_standardInput : descriptor ≠ standardInput
  not_standardOutput : descriptor ≠ standardOutput
  not_input : descriptor ≠ input
  not_output : descriptor ≠ output

variable {input output : Descriptor} {plan : ExecPlan} {stage : Stage} {scheduling : Scheduling}

theorem IsStart.unnamed {request : Call} (start : IsStart input output request)
    (apart : Apart descriptor input output) : request.names descriptor = false := by
  obtain ⟨not_standardInput, not_standardOutput, not_input, not_output⟩ := apart
  cases start with
  | input => simpa [Call.names] using ⟨not_input.symm, not_standardInput.symm⟩
  | output => simpa [Call.names] using ⟨not_output.symm, not_standardOutput.symm⟩
  | signal | exec => rfl

namespace ExecPlan

theorem avoids_execWith (apart : Apart descriptor input output) :
    (plan.execWith input output).Avoids descriptor fun _ => True :=
  plan.calls_execWith.avoids fun _ start => start.unnamed apart

theorem avoids_enter {channel : Channel} {post : α → Prop} (apart : Apart descriptor input output)
    (not_watcher : descriptor ≠ channel.watcher) (not_reporter : descriptor ≠ channel.reporter) :
    (plan.enter channel input output : Action α).Avoids descriptor post :=
  (avoids_closeAll (by simpa using not_watcher)).bind fun _ _ =>
    (avoids_execWith apart).bind fun _ _ =>
      (Channel.avoids_report not_reporter).bind fun _ _ => avoids_exit

theorem avoids_confirm {channel : Channel} {pid : Int} (not_watcher : descriptor ≠ channel.watcher)
    (not_reporter : descriptor ≠ channel.reporter) :
    (plan.confirm channel pid).Avoids descriptor fun _ => True := by
  refine (avoids_closeAll (by simpa using not_reporter)).bind fun _ _ => ?_
  refine (Channel.avoids_await not_watcher).bind fun failure _ => ?_
  cases failure with
  | none => trivial
  | some errno => exact avoids_perform_bind rfl fun _ _ => trivial

end ExecPlan

theorem avoids_spawn (apart : Apart descriptor input output) :
    (spawn plan input output).Avoids descriptor fun _ => True := by
  refine Channel.avoids_create.bind fun created given => ?_
  cases created with
  | error errno => trivial
  | ok channel =>
    obtain ⟨watcher, reporter⟩ := given channel rfl
    refine avoids_perform_bind rfl fun reply _ => ?_
    rcases reply with errno | _ | pid
    · exact (avoids_closeAll (by simp [watcher.symm, reporter.symm])).bind fun _ _ => trivial
    · exact ExecPlan.avoids_enter apart watcher.symm reporter.symm
    · exact ExecPlan.avoids_confirm watcher.symm reporter.symm

theorem avoids_awaitStage {pid : Int} :
    (awaitStage plan pid).Avoids descriptor fun _ => True := by
  refine avoids_perform_bind rfl fun reply _ => ?_
  cases reply with
  | error errno => trivial
  | ok report =>
    dsimp only
    split <;> trivial

theorem avoids_startStage (not_standardInput : descriptor ≠ standardInput)
    (not_standardOutput : descriptor ≠ standardOutput) (not_input : descriptor ≠ input) :
    (startStage stage input scheduling).Avoids descriptor fun started =>
      ∀ readEnd, started = .ok readEnd → readEnd ≠ descriptor := by
  unfold startStage
  cases ExecPlan.ofStage stage with
  | error error => exact nofun
  | ok plan =>
    refine avoids_perform_bind rfl fun reply ungiven => ?_
    rcases reply with errno | ⟨readEnd, writeEnd⟩
    · exact nofun
    obtain ⟨not_read, not_write⟩ : descriptor ≠ readEnd ∧ descriptor ≠ writeEnd := by
      simpa [Call.gains] using ungiven
    refine (avoids_spawn ⟨not_standardInput, not_standardOutput, not_input, not_write⟩).bind
      fun spawned _ => ?_
    cases spawned with
    | error error => exact (avoids_closeAll (by simp [not_read, not_write])).bind fun _ _ => nofun
    | ok pid =>
      refine (avoids_closeAll (by simpa using not_write)).bind fun _ _ => ?_
      split
      · rintro _ ⟨⟩
        exact not_read.symm
      · refine avoids_awaitStage.bind fun after _ => ?_
        cases after with
        | ok _ =>
          rintro _ ⟨⟩
          exact not_read.symm
        | error error => exact (avoids_closeAll (by simpa using not_read)).bind fun _ _ => nofun

theorem spares_spawn : (spawn plan input output).Spares descriptor fun _ => True := by
  refine Channel.avoids_create.spares.bind fun created given => ?_
  cases created with
  | error errno => trivial
  | ok channel =>
    obtain ⟨watcher, reporter⟩ := given channel rfl
    apply spares_fork_bind
    · intro errno
      have other : descriptor ∉ [channel.reporter, channel.watcher] := by
        simp [watcher.symm, reporter.symm]
      exact (avoids_closeAll other).spares.bind fun _ _ => trivial
    · intro pid
      exact (ExecPlan.avoids_confirm watcher.symm reporter.symm).spares

theorem spares_startStage :
    (startStage stage input scheduling).Spares descriptor fun _ => True := by
  unfold startStage
  cases ExecPlan.ofStage stage with
  | error error => trivial
  | ok plan =>
    refine ⟨rfl, fun reply _ ungiven => ?_⟩
    rcases reply with errno | ⟨readEnd, writeEnd⟩
    · trivial
    obtain ⟨not_read, not_write⟩ : descriptor ≠ readEnd ∧ descriptor ≠ writeEnd := by
      simpa [Call.gains] using ungiven
    refine spares_spawn.bind fun spawned _ => ?_
    cases spawned with
    | error error =>
      exact (avoids_closeAll (by simp [not_read, not_write])).spares.bind fun _ _ => trivial
    | ok pid =>
      refine (avoids_closeAll (by simpa using not_write)).spares.bind fun _ _ => ?_
      split
      · trivial
      · refine avoids_awaitStage.spares.bind fun after _ => ?_
        cases after with
        | ok _ => trivial
        | error error =>
          exact (avoids_closeAll (by simpa using not_read)).spares.bind fun _ _ => trivial

theorem avoids_execInPlace (apart : Apart descriptor input output) :
    (execInPlace plan input output).Avoids descriptor fun _ => True := by
  have announces (failure : ExecFailure) : (announceNotFound failure.mortal >>= fun _ =>
      pure failure.errno).Avoids descriptor fun _ => True :=
    (avoids_announceNotFound apart.not_standardOutput).bind fun _ _ => trivial
  refine avoids_perform_bind (by simpa [Call.names] using apart.not_standardOutput.symm)
    fun saved ungiven => ?_
  refine (ExecPlan.avoids_execWith apart).bind fun failure _ => ?_
  cases saved with
  | error failed => exact announces failure
  | ok copy =>
    have not_copy : descriptor ≠ copy := by simpa [Call.gains] using ungiven
    refine avoids_perform_bind ?_ fun _ _ => ?_
    · simpa [Call.names] using ⟨not_copy.symm, apart.not_standardOutput.symm⟩
    · exact (avoids_closeAll (by simpa using not_copy)).bind fun _ _ => announces failure

namespace Pipeline

variable {flags : Flags}

theorem ne_getD {carried : Option Descriptor} (not_input : descriptor ≠ input)
    (not_carried : descriptor ∉ carried.toList) : descriptor ≠ carried.getD input := by
  cases carried with
  | none => exact not_input
  | some readEnd => simpa using not_carried

theorem avoids_startEarlier (not_standardInput : descriptor ≠ standardInput)
    (not_standardOutput : descriptor ≠ standardOutput) (not_input : descriptor ≠ input)
    {carried : Option Descriptor} (not_carried : descriptor ∉ carried.toList)
    (stages : List Stage) :
    (startEarlier input flags scheduling carried stages).Avoids descriptor fun started =>
      ∀ carried, started = .ok carried → descriptor ∉ carried.toList := by
  induction stages generalizing carried with
  | nil =>
    rintro _ ⟨⟩
    exact not_carried
  | cons stage rest ih =>
    unfold startEarlier
    split
    · exact (avoids_closeAll not_carried).bind fun _ _ => by rintro _ ⟨⟩
    refine (avoids_startStage not_standardInput not_standardOutput
      (ne_getD not_input not_carried)).bind fun started given => ?_
    cases started with
    | ok readEnd =>
      refine (avoids_closeAll not_carried).bind fun _ _ => ih ?_
      simpa using (given readEnd rfl).symm
    | error error =>
      exact (avoids_announceNotFound not_standardOutput).bind fun _ _ =>
        (avoids_closeAll not_carried).bind fun _ _ => by rintro _ ⟨⟩

theorem avoids_becomeLast {pipeline : Pipeline} (apart : Apart descriptor input output) :
    (pipeline.becomeLast input output).Avoids descriptor fun _ => True := by
  unfold becomeLast
  cases ExecPlan.ofStage pipeline.last with
  | ok plan => exact (avoids_execInPlace apart).bind fun _ _ => trivial
  | error error =>
    exact (avoids_announceNotFound apart.not_standardOutput).bind fun _ _ => trivial

/-- Apart from its ends and the standard streams, a pipeline and all its stages only ever name
descriptors that the system gives to them. -/
theorem avoids_run {pipeline : Pipeline} (apart : Apart descriptor input output) :
    (pipeline.run input output flags scheduling).Avoids descriptor fun _ => True := by
  refine (avoids_startEarlier apart.not_standardInput apart.not_standardOutput apart.not_input
    (by simp) _).bind fun started given => ?_
  cases started with
  | error failure => trivial
  | ok carried =>
    have not_carried := given carried rfl
    have apart_last : Apart descriptor (carried.getD input) output :=
      ⟨apart.not_standardInput, apart.not_standardOutput, ne_getD apart.not_input not_carried,
        apart.not_output⟩
    exact (avoids_becomeLast apart_last).bind fun _ _ =>
      (avoids_closeAll not_carried).bind fun _ _ => trivial

end Pipeline

end PipelineShell
