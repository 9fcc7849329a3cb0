import Mathlib.Data.List.Forall2
import PipelineShell.Proofs.Pipeline.Calls

namespace PipelineShell

open PipelineShell.Action

def Call.attempt? : Call → Option (String × List String)
  | exec program arguments | execFile program arguments => some (program, arguments)
  | _ => none

theorem Call.attempt?_of_isPlain {request : Call} (plain : request.isPlain = true) :
    request.attempt? = none := by
  cases request <;> first | rfl | cases plain

def Fate.attempt? : Fate → Option (String × List String)
  | replaced program arguments => some (program, arguments)
  | exited _ | killed _ | pending => none

mutual
def Event.attempts : Event → List (String × List String)
  | .answered request _ => request.attempt?.toList
  | .forked _ child fate => attempts child ++ fate.attempt?.toList

/-- What a process and its descendants try to become, up to the end of the events. Attempts that
fail are answered, an attempt that succeeds is the fate of its process. -/
def attempts : List Event → List (String × List String)
  | [] => []
  | event :: rest => event.attempts ++ attempts rest
end

@[simp] theorem attempts_nil : attempts [] = [] := rfl

@[simp] theorem attempts_answered (request : Call) (reply : request.Reply) (rest : List Event) :
    attempts (.answered request reply :: rest) = request.attempt?.toList ++ attempts rest := rfl

@[simp] theorem attempts_forked (pid : Int) (child : List Event) (fate : Fate)
    (rest : List Event) :
    attempts (.forked pid child fate :: rest) =
      attempts child ++ fate.attempt?.toList ++ attempts rest := rfl

@[simp] theorem attempts_append (first second : List Event) :
    attempts (first ++ second) = attempts first ++ attempts second := by
  induction first with
  | nil => rfl
  | cons event first ih =>
    rw [List.cons_append, attempts, attempts, ih, List.append_assoc]

/-- What is passed is the program and all arguments of the stage, in order and byte for byte. None
of them has a NUL, which would end it early. -/
structure Stage.Passes (stage : Stage) (image : String × List String) : Prop where
  program : image.2.head? = some image.1
  complete : image.2.map String.toUTF8 = stage.args.map List.utf8Encode
  clean : ∀ arg ∈ stage.args, '\x00' ∉ arg

variable {α β : Type} {events : List Event} {stages more : List Stage}

def Outcome.attempt? : Outcome α → Option (String × List String)
  | .value _ => none
  | .ended fate => fate.attempt?

/-- Every run tries to become some of the stages, in order, and nothing else. -/
structure Action.Attempts (stages : List Stage) (action : Action α) : Prop where
  of_run : ∀ events outcome, Runs action events outcome →
    ∃ reached : List Stage, reached.Sublist stages ∧
      List.Forall₂ Stage.Passes reached (attempts events ++ outcome.attempt?.toList)

namespace Action

def Quiet (action : Action α) : Prop := action.Throughout (·.attempt? = none)

theorem Quiet.no_attempts {action : Action α} (quiet : action.Quiet) {outcome : Outcome α}
    (run : Runs action events outcome) : attempts events = [] ∧ outcome.attempt? = none := by
  induction run with
  | done | exhausted | pending | exit | die => exact ⟨rfl, rfl⟩
  | exec | execFile => cases (quiet .noEntry).1
  | call reply single rest ih =>
    obtain ⟨silent, others⟩ := quiet reply
    obtain ⟨later, ended⟩ := ih others
    exact ⟨by rw [attempts_answered, silent, later]; rfl, ended⟩
  | fork pid inChild rest ih_child ih =>
    obtain ⟨inside, fate⟩ := ih_child (quiet _).2
    obtain ⟨later, ended⟩ := ih (quiet _).2
    exact ⟨by rw [attempts_forked, inside, later]; simpa [Outcome.attempt?] using fate, ended⟩

theorem Quiet.attempts {action : Action α} (quiet : action.Quiet) : action.Attempts stages := by
  refine ⟨fun events outcome run => ?_⟩
  obtain ⟨nothing, ended⟩ := quiet.no_attempts run
  exact ⟨[], List.nil_sublist _, by rw [nothing, ended]; exact .nil⟩

theorem attempts_done (value : α) : (done value).Attempts stages :=
  Quiet.attempts trivial

theorem Attempts.bind {action : Action α} {f : α → Action β} (first : action.Attempts stages)
    (contained : action.Contained) (second : ∀ value, (f value).Attempts more) :
    (action >>= f).Attempts (stages ++ more) := by
  refine ⟨fun events outcome run => ?_⟩
  rcases (Runs.bind_iff contained).1 run with
    ⟨before, after, value, rfl, returns, goesOn⟩ | ⟨fate, rfl, ends⟩
  · obtain ⟨reached, some, passes⟩ := first.of_run _ _ returns
    obtain ⟨reached', some', passes'⟩ := (second value).of_run _ _ goesOn
    refine ⟨reached ++ reached', some.append some', ?_⟩
    rw [attempts_append, List.append_assoc]
    exact List.rel_append (by simpa [Outcome.attempt?] using passes) passes'
  · obtain ⟨reached, some, passes⟩ := first.of_run _ _ ends
    exact ⟨reached, some.trans (List.sublist_append_left ..), passes⟩

theorem Quiet.bind_attempts {action : Action α} {f : α → Action β} (quiet : action.Quiet)
    (contained : action.Contained) (rest : ∀ value, (f value).Attempts stages) :
    (action >>= f).Attempts stages := by
  have first : action.Attempts [] := quiet.attempts
  exact first.bind contained rest

theorem Attempts.bind_quiet {action : Action α} {f : α → Action β}
    (first : action.Attempts stages) (contained : action.Contained) (quiet : ∀ value, (f value).Quiet) :
    (action >>= f).Attempts stages := by
  have second : ∀ value, (f value).Attempts [] := fun value => (quiet value).attempts
  simpa using first.bind contained second

theorem attempts_perform_bind {request : Call} {next : request.Reply → Action β}
    (plain : request.isPlain = true) (rest : ∀ reply, (next reply).Attempts stages) :
    (perform request >>= next).Attempts stages := by
  have quiet : (perform request).Quiet := fun _ => ⟨Call.attempt?_of_isPlain plain, trivial⟩
  exact quiet.bind_attempts (steady_perform plain).contained rest

theorem attempts_exec_bind {stage : Stage} {program : String} {arguments : List String}
    {next : Errno → Action β} (passes : stage.Passes (program, arguments))
    (rest : ∀ errno, (next errno).Attempts stages) :
    (perform (.exec program arguments) >>= next).Attempts (stage :: stages) := by
  refine ⟨fun events outcome run => ?_⟩
  rcases runs_exec_iff.1 run with ⟨rfl, rfl⟩ | ⟨rfl, rfl⟩ | ⟨errno, after, rfl, goesOn⟩
  · exact ⟨[], List.nil_sublist _, .nil⟩
  · exact ⟨[stage], by simp, .cons passes .nil⟩
  · obtain ⟨reached, some, passes'⟩ := (rest errno).of_run _ _ goesOn
    exact ⟨stage :: reached, some.cons_cons stage, .cons passes passes'⟩

theorem attempts_fork_bind {next : Except Errno Forked → Action β}
    (inChild : (next (.ok .child)).Attempts stages) (failed : ∀ errno, (next (.error errno)).Quiet)
    (inParent : ∀ pid, (next (.ok (.parent pid))).Quiet) :
    (perform .fork >>= next).Attempts stages := by
  refine ⟨fun events outcome run => ?_⟩
  rcases runs_fork_iff.1 run with
    ⟨rfl, rfl⟩ | ⟨errno, after, rfl, goesOn⟩ | ⟨pid, child, fate, after, rfl, inside, goesOn⟩
  · exact ⟨[], List.nil_sublist _, .nil⟩
  · obtain ⟨nothing, ended⟩ := (failed errno).no_attempts goesOn
    exact ⟨[], List.nil_sublist _, by rw [attempts_answered, nothing, ended]; exact .nil⟩
  · obtain ⟨reached, some, passes⟩ := inChild.of_run _ _ inside
    obtain ⟨nothing, ended⟩ := (inParent pid).no_attempts goesOn
    refine ⟨reached, some, ?_⟩
    rw [attempts_forked, nothing, ended]
    simpa [Outcome.attempt?] using passes

end Action

theorem quiet_closeAll (descriptors : List Descriptor) : (closeAll descriptors).Quiet := by
  refine (calls_closeAll descriptors).throughout.mono ?_
  rintro _ ⟨_, -, rfl⟩
  rfl

theorem Action.quiet_writeAll (descriptor : Descriptor) (data : ByteArray) :
    (writeAll descriptor data).Quiet := by
  refine (calls_writeAll descriptor data).throughout.mono ?_
  rintro _ ⟨_, rfl⟩
  rfl

namespace Channel

theorem quiet_create : create.Quiet :=
  throughout_perform_bind rfl fun reply => by cases reply <;> trivial

theorem quiet_report (reporter : Descriptor) (errno : Errno) : (report reporter errno).Quiet :=
  (quiet_writeAll ..).bind fun _ => quiet_closeAll _

theorem quiet_await (watcher : Descriptor) : (await watcher).Quiet := by
  refine (calls_await watcher).throughout.mono ?_
  rintro _ (_ | _) <;> rfl

end Channel

theorem quiet_attach (source target : Descriptor) : (attach source target).Quiet :=
  (@calls_attach (·.attempt? = none) source target fun _ => rfl).throughout

theorem quiet_attachStreams (input output : Descriptor) : (attachStreams input output).Quiet := by
  refine (quiet_attach ..).bind fun attached => ?_
  cases attached with
  | error errno => trivial
  | ok _ => exact quiet_attach ..

theorem quiet_announceNotFound (mortal : Bool) : (announceNotFound mortal).Quiet := by
  refine (calls_announceNotFound mortal).throughout.mono ?_
  rintro _ rfl
  rfl

theorem ExecPlan.quiet_confirm (plan : ExecPlan) (channel : Channel) (child : Int) :
    (plan.confirm channel child).Quiet := by
  refine (quiet_closeAll _).bind fun _ => (Channel.quiet_await _).bind fun failure => ?_
  cases failure with
  | none => trivial
  | some errno => exact throughout_perform_bind rfl fun _ => trivial

theorem quiet_awaitStage (plan : ExecPlan) (child : Int) : (awaitStage plan child).Quiet := by
  refine throughout_perform_bind rfl fun reply => ?_
  cases reply with
  | error errno => trivial
  | ok report =>
    dsimp only
    split <;> trivial

theorem Pipeline.quiet_awaitJob (channel : Channel) (child : Int) :
    (awaitJob channel child).Quiet := by
  refine (quiet_closeAll _).bind fun _ => (Channel.quiet_await _).bind fun failure => ?_
  refine throughout_perform_bind rfl fun reply => ?_
  cases reply with
  | error errno => trivial
  | ok report =>
    dsimp only
    split <;> trivial

theorem Stage.Asks.passes {stage : Stage} {program : Word} {arguments : List String}
    (asks : stage.Asks program arguments) : stage.Passes (program.toString, arguments) where
  program := by rw [← asks.arguments_eq, List.head?_map, asks.program_eq, Option.map_some]
  complete := by
    rw [← asks.arguments_eq, List.map_map]
    exact List.map_congr_left fun arg _ => String.toByteArray_ofList
  clean := asks.clean

section Stage

variable {stage : Stage} {plan : ExecPlan}

namespace ExecPlan

theorem attempts_exec (planned : ofStage stage = .ok plan) : plan.exec.Attempts [stage] :=
  attempts_perform_bind rfl fun _ => attempts_perform_bind rfl fun _ =>
    attempts_exec_bind (ofStage_ok planned).passes fun _ => attempts_done _

theorem attempts_execWith (planned : ofStage stage = .ok plan) (input output : Descriptor) :
    (plan.execWith input output).Attempts [stage] := by
  refine (quiet_attachStreams ..).bind_attempts (steady_attachStreams ..).contained fun attached => ?_
  cases attached with
  | error errno => exact attempts_done _
  | ok _ => exact attempts_exec planned

theorem attempts_enter (planned : ofStage stage = .ok plan) (channel : Channel)
    (input output : Descriptor) :
    (plan.enter channel input output : Action α).Attempts [stage] := by
  refine (quiet_closeAll _).bind_attempts (steady_closeAll _).contained fun _ => ?_
  refine (attempts_execWith planned ..).bind_quiet (plan.contained_execWith ..) fun errno => ?_
  exact (Channel.quiet_report _ _).bind fun _ => throughout_exit _

end ExecPlan

theorem attempts_spawn (planned : ExecPlan.ofStage stage = .ok plan) (input output : Descriptor) :
    (spawn plan input output).Attempts [stage] := by
  refine Channel.quiet_create.bind_attempts Channel.steady_create.contained fun created => ?_
  cases created with
  | error errno => exact attempts_done _
  | ok channel =>
    refine attempts_fork_bind ?_ (fun errno => ?_) fun child => ?_
    · exact ExecPlan.attempts_enter planned channel input output
    · exact (quiet_closeAll _).bind fun _ => trivial
    · exact plan.quiet_confirm channel child

end Stage

theorem attempts_startStage (stage : Stage) (input : Descriptor) (scheduling : Scheduling) :
    (startStage stage input scheduling).Attempts [stage] := by
  unfold startStage
  cases planned : ExecPlan.ofStage stage with
  | error error => exact attempts_done _
  | ok plan =>
    refine attempts_perform_bind rfl fun reply => ?_
    cases reply with
    | error errno => exact attempts_done _
    | ok ends =>
      refine (attempts_spawn planned ..).bind_quiet (steady_spawn ..).contained fun spawned => ?_
      cases spawned with
      | error error => exact (quiet_closeAll _).bind fun _ => trivial
      | ok child =>
        refine (quiet_closeAll _).bind fun _ => ?_
        split
        · trivial
        · refine (quiet_awaitStage _ _).bind fun awaited => ?_
          cases awaited with
          | ok _ => trivial
          | error error => exact (quiet_closeAll _).bind fun _ => trivial

theorem attempts_execInPlace {stage : Stage} {plan : ExecPlan}
    (planned : ExecPlan.ofStage stage = .ok plan) (input output : Descriptor) :
    (execInPlace plan input output).Attempts [stage] := by
  refine attempts_perform_bind rfl fun saved => ?_
  refine (ExecPlan.attempts_execWith planned ..).bind_quiet (plan.contained_execWith ..) fun errno => ?_
  cases saved with
  | error _ => exact (quiet_announceNotFound _).bind fun _ => trivial
  | ok copy =>
    exact throughout_perform_bind rfl fun _ => (quiet_closeAll _).bind fun _ =>
      (quiet_announceNotFound _).bind fun _ => trivial

namespace Pipeline

theorem attempts_startEarlier (input : Descriptor) (flags : Flags) (scheduling : Scheduling)
    (carried : Option Descriptor) (stages : List Stage) :
    (startEarlier input flags scheduling carried stages).Attempts stages := by
  induction stages generalizing carried with
  | nil => exact attempts_done _
  | cons stage rest ih =>
    unfold startEarlier
    split
    · exact Quiet.attempts ((quiet_closeAll _).bind fun _ => trivial)
    · refine (attempts_startStage ..).bind (steady_startStage ..).contained fun started => ?_
      cases started with
      | ok readEnd =>
        exact (quiet_closeAll _).bind_attempts (steady_closeAll _).contained fun _ => ih _
      | error error =>
        exact Quiet.attempts ((quiet_announceNotFound _).bind fun _ => (quiet_closeAll _).bind fun _ =>
          trivial)

theorem attempts_becomeLast (pipeline : Pipeline) (input output : Descriptor) :
    (pipeline.becomeLast input output).Attempts [pipeline.last] := by
  unfold becomeLast
  cases planned : ExecPlan.ofStage pipeline.last with
  | ok plan =>
    exact (attempts_execInPlace planned ..).bind_quiet (contained_execInPlace ..) fun _ => trivial
  | error error => exact Quiet.attempts ((quiet_announceNotFound _).bind fun _ => trivial)

theorem attempts_run (pipeline : Pipeline) (input output : Descriptor) (flags : Flags)
    (scheduling : Scheduling) :
    (pipeline.run input output flags scheduling).Attempts pipeline.stages := by
  refine (attempts_startEarlier ..).bind (steady_startEarlier ..).contained fun started => ?_
  cases started with
  | error failure => exact attempts_done _
  | ok carried =>
    exact (pipeline.attempts_becomeLast ..).bind_quiet (contained_becomeLast ..) fun _ =>
      (quiet_closeAll _).bind fun _ => trivial

theorem attempts_supervise (pipeline : Pipeline) (input output : Descriptor) (flags : Flags)
    (scheduling : Scheduling) (reporter : Option Descriptor) :
    (pipeline.supervise input output flags scheduling reporter : Action α).Attempts
      pipeline.stages := by
  refine (pipeline.attempts_run ..).bind_quiet (contained_run ..) fun failure => ?_
  cases reporter with
  | none => exact throughout_exit _
  | some reporter => exact (Channel.quiet_report _ _).bind fun _ => throughout_exit _

theorem attempts_runAsJob (pipeline : Pipeline) (input output : Descriptor) (background : Bool)
    (flags : Flags) (scheduling : Scheduling) :
    (pipeline.runAsJob input output background flags scheduling).Attempts pipeline.stages := by
  cases background with
  | true =>
    exact attempts_fork_bind (pipeline.attempts_supervise ..) (fun _ => trivial) fun _ => trivial
  | false =>
    refine Channel.quiet_create.bind_attempts Channel.steady_create.contained fun created => ?_
    cases created with
    | error errno => exact attempts_done _
    | ok channel =>
      refine attempts_fork_bind ?_ (fun errno => ?_) fun child => ?_
      · exact (quiet_closeAll _).bind_attempts (steady_closeAll _).contained fun _ =>
          pipeline.attempts_supervise ..
      · exact (quiet_closeAll _).bind fun _ => trivial
      · exact quiet_awaitJob channel child

end Pipeline

end PipelineShell
