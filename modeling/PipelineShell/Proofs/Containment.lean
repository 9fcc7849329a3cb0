import PipelineShell.Line.Run
import PipelineShell.Proofs.Messages

namespace PipelineShell

open PipelineShell.Action

variable {α : Type}

namespace Channel

@[simp] theorem steady_create : create.Steady :=
  steady_perform_bind rfl fun reply => by cases reply <;> trivial

@[simp] theorem steady_await (watcher : Descriptor) : (await watcher).Steady := by
  refine (steady_readFull ..).bind fun answer => (steady_closeAll _).bind fun _ => ?_
  cases answer <;> trivial

end Channel

@[simp] theorem steady_attach (source target : Descriptor) :
    (attach source target).Steady := by
  unfold attach
  split
  · trivial
  · exact steady_perform rfl

@[simp] theorem steady_attachStreams (input output : Descriptor) :
    (attachStreams input output).Steady := by
  refine (steady_attach ..).bind fun attached => ?_
  cases attached with
  | error errno => trivial
  | ok _ => exact steady_attach ..

@[simp] theorem steady_announceNotFound : (announceNotFound false).Steady :=
  steady_perform_bind rfl fun reply => by cases reply <;> simp

@[simp] theorem contained_announceNotFound (mortal : Bool) : (announceNotFound mortal).Contained :=
  contained_perform_bind rfl fun reply => by
    cases reply with
    | ok _ => trivial
    | error errno =>
      dsimp only
      split
      · exact (neverReturns_die _).contained
      · trivial

theorem calls_announceNotFound (mortal : Bool) :
    (announceNotFound mortal).Calls (· = .write standardOutput commandNotFound.toUTF8) := by
  refine calls_perform_bind rfl rfl fun reply => ?_
  cases reply with
  | ok _ => trivial
  | error errno =>
    dsimp only
    split
    · exact calls_die _
    · trivial

namespace ExecPlan

@[simp] theorem contained_exec (plan : ExecPlan) : plan.exec.Contained :=
  contained_perform_bind rfl fun _ => contained_perform_bind rfl fun _ =>
    contained_call rfl fun _ => trivial

@[simp] theorem contained_execWith (plan : ExecPlan) (input output : Descriptor) :
    (plan.execWith input output).Contained := by
  refine (steady_attachStreams ..).contained.bind fun attached => ?_
  cases attached <;> simp

theorem neverReturns_enter (plan : ExecPlan) (channel : Channel) (input output : Descriptor) :
    (plan.enter channel input output : Action α).NeverReturns :=
  .bind_right fun _ => .bind_right fun _ => .bind_right fun _ => neverReturns_exit _

@[simp] theorem steady_confirm (plan : ExecPlan) (channel : Channel) (child : Int) :
    (plan.confirm channel child).Steady := by
  refine (steady_closeAll _).bind fun _ => (Channel.steady_await _).bind fun failure => ?_
  cases failure with
  | none => trivial
  | some errno => exact steady_perform_bind rfl fun _ => trivial

end ExecPlan

@[simp] theorem steady_spawn (plan : ExecPlan) (input output : Descriptor) :
    (spawn plan input output).Steady := by
  refine Channel.steady_create.bind fun created => ?_
  cases created with
  | error errno => trivial
  | ok channel =>
    refine steady_fork_bind ?_ (fun errno => ?_) fun child => ?_
    · exact plan.neverReturns_enter channel input output
    · exact (steady_closeAll _).bind fun _ => trivial
    · exact plan.steady_confirm ..

@[simp] theorem steady_awaitStage (plan : ExecPlan) (child : Int) :
    (awaitStage plan child).Steady := by
  refine steady_perform_bind rfl fun reply => ?_
  cases reply with
  | error errno => trivial
  | ok report =>
    dsimp only
    split <;> trivial

@[simp] theorem steady_startStage (stage : Stage) (input : Descriptor)
    (scheduling : Scheduling) : (startStage stage input scheduling).Steady := by
  unfold startStage
  cases ExecPlan.ofStage stage with
  | error error => trivial
  | ok plan =>
    refine steady_perform_bind rfl fun reply => ?_
    cases reply with
    | error errno => trivial
    | ok ends =>
      refine (steady_spawn ..).bind fun spawned => ?_
      cases spawned with
      | error error => exact (steady_closeAll _).bind fun _ => trivial
      | ok child =>
        refine (steady_closeAll _).bind fun _ => ?_
        split
        · trivial
        · refine (steady_awaitStage ..).bind fun awaited => ?_
          cases awaited with
          | ok _ => trivial
          | error error => exact (steady_closeAll _).bind fun _ => trivial

@[simp] theorem contained_execInPlace (plan : ExecPlan) (input output : Descriptor) :
    (execInPlace plan input output).Contained := by
  refine contained_perform_bind rfl fun saved => (plan.contained_execWith ..).bind fun failure => ?_
  cases saved with
  | error _ => exact (contained_announceNotFound _).bind fun _ => trivial
  | ok copy =>
    exact contained_perform_bind rfl fun _ => (steady_closeAll _).contained.bind fun _ =>
      (contained_announceNotFound _).bind fun _ => trivial

namespace Pipeline

@[simp] theorem steady_startEarlier (input : Descriptor) (flags : Flags)
    (scheduling : Scheduling) (carried : Option Descriptor) (stages : List Stage) :
    (startEarlier input flags scheduling carried stages).Steady := by
  induction stages generalizing carried with
  | nil => trivial
  | cons stage rest ih =>
    unfold startEarlier
    split
    · exact (steady_closeAll _).bind fun _ => trivial
    · refine (steady_startStage ..).bind fun started => ?_
      cases started with
      | ok readEnd => exact (steady_closeAll _).bind fun _ => ih _
      | error error =>
        exact steady_announceNotFound.bind fun _ => (steady_closeAll _).bind fun _ => trivial

@[simp] theorem contained_becomeLast (pipeline : Pipeline) (input output : Descriptor) :
    (pipeline.becomeLast input output).Contained := by
  unfold becomeLast
  cases ExecPlan.ofStage pipeline.last with
  | ok plan => exact (contained_execInPlace ..).bind fun _ => trivial
  | error error => exact steady_announceNotFound.contained.bind fun _ => trivial

@[simp] theorem contained_run (pipeline : Pipeline) (input output : Descriptor) (flags : Flags)
    (scheduling : Scheduling) : (pipeline.run input output flags scheduling).Contained := by
  refine (steady_startEarlier ..).contained.bind fun started => ?_
  cases started with
  | error failure => trivial
  | ok carried =>
    exact (contained_becomeLast ..).bind fun _ =>
      (steady_closeAll _).contained.bind fun _ => trivial

theorem neverReturns_supervise (pipeline : Pipeline) (input output : Descriptor) (flags : Flags)
    (scheduling : Scheduling) (reporter : Option Descriptor) :
    (pipeline.supervise input output flags scheduling reporter : Action α).NeverReturns := by
  refine .bind_right fun failure => ?_
  cases reporter with
  | none => exact neverReturns_exit _
  | some reporter => exact .bind_right fun _ => neverReturns_exit _

@[simp] theorem steady_awaitJob (channel : Channel) (child : Int) :
    (awaitJob channel child).Steady := by
  refine (steady_closeAll _).bind fun _ => (Channel.steady_await _).bind fun failure => ?_
  refine steady_perform_bind rfl fun reply => ?_
  cases reply with
  | error errno => trivial
  | ok report =>
    dsimp only
    split <;> trivial

@[simp] theorem steady_runAsJob (pipeline : Pipeline) (input output : Descriptor)
    (background : Bool) (flags : Flags) (scheduling : Scheduling) :
    (pipeline.runAsJob input output background flags scheduling).Steady := by
  cases background with
  | true =>
    refine steady_fork_bind ?_ (fun errno => ?_) fun child => ?_
    · exact neverReturns_supervise ..
    · trivial
    · trivial
  | false =>
    refine Channel.steady_create.bind fun created => ?_
    cases created with
    | error errno => trivial
    | ok channel =>
      refine steady_fork_bind ?_ (fun errno => ?_) fun child => ?_
      · exact .bind_right fun _ => neverReturns_supervise ..
      · exact (steady_closeAll _).bind fun _ => trivial
      · exact steady_awaitJob ..

end Pipeline

namespace Redirection

@[simp] theorem steady_openPath? (path : Option Word) (mode : OpenMode) :
    (openPath? path mode).Steady := by
  cases path with
  | none => trivial
  | some path =>
    refine Steady.bind ?_ fun opened => by cases opened <;> trivial
    unfold openPath
    split
    · trivial
    · refine (steady_uninterrupted (steady_perform rfl)).bind fun opened => ?_
      cases opened <;> trivial

@[simp] theorem steady_openFor (statement : Statement) : (openFor statement).Steady := by
  refine (steady_openPath? ..).bind fun input => ?_
  cases input with
  | error error => trivial
  | ok input =>
    refine (steady_openPath? ..).bind fun output => ?_
    cases output with
    | ok output => trivial
    | error error => exact (steady_closeAll _).bind fun _ => trivial

@[simp] theorem steady_close (redirection : Redirection) : redirection.close.Steady :=
  (steady_closeAll _).bind fun _ => steady_closeAll _

end Redirection

theorem Statement.lasting_run {room : Nat} (statement : Statement) (flags : Flags)
    (settings : Settings) : (statement.run flags settings).Lasting room := by
  refine (Redirection.steady_openFor _).lasting.bind fun _ opened _ => ?_
  cases opened with
  | error error => exact lasting_done _
  | ok redirection =>
    refine (Console.lasting_log ..).bind fun _ _ _ => Steady.lasting ?_
    refine steady_perform_bind rfl fun flushed => ?_
    cases flushed with
    | error cause => exact (Redirection.steady_close _).bind fun _ => trivial
    | ok _ =>
      exact (Pipeline.steady_runAsJob ..).bind fun _ =>
        (Redirection.steady_close _).bind fun _ => trivial

@[simp] theorem Statement.contained_run (statement : Statement) (flags : Flags)
    (settings : Settings) : (statement.run flags settings).Contained :=
  (@lasting_run 0 statement flags settings).contained

end PipelineShell
