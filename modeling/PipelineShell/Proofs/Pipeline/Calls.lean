import PipelineShell.Proofs.Pipeline.Exec

namespace PipelineShell

open PipelineShell.Action

variable {α β : Type} {events : List Event}

namespace Action

def Throughout (allowed : Call → Prop) : Action α → Prop
  | done _ | exhausted => True
  | call request next => ∀ reply, allowed request ∧ (next reply).Throughout allowed

variable {allowed : Call → Prop}

theorem Calls.throughout {action : Action α} (h : action.Calls allowed) :
    action.Throughout allowed := by
  induction action with
  | done value => trivial
  | exhausted => trivial
  | call request next ih => exact fun reply => ⟨(h reply).1.1, ih reply (h reply).2⟩

theorem Throughout.mono {weaker : Call → Prop} {action : Action α} (h : action.Throughout allowed)
    (weaken : ∀ request, allowed request → weaker request) : action.Throughout weaker := by
  induction action with
  | done value => trivial
  | exhausted => trivial
  | call request next ih => exact fun reply => ⟨weaken _ (h reply).1, ih reply (h reply).2⟩

theorem throughout_perform_bind {request : Call} {next : request.Reply → Action β}
    (ok : allowed request) (h : ∀ reply, (next reply).Throughout allowed) :
    (perform request >>= next).Throughout allowed :=
  fun reply => ⟨ok, h reply⟩

theorem throughout_exit (code : Nat) : (exit code : Action α).Throughout allowed := nofun

theorem Throughout.bind {action : Action α} {f : α → Action β} (h : action.Throughout allowed)
    (h' : ∀ value, (f value).Throughout allowed) : (action >>= f).Throughout allowed := by
  induction action with
  | done value => exact h' value
  | exhausted => trivial
  | call request next ih => exact fun reply => ⟨(h reply).1, ih reply (h reply).2⟩

end Action

theorem Runs.throughout {allowed : Call → Prop} {action : Action α} {outcome : Outcome α}
    (run : Runs action events outcome) (h : action.Throughout allowed) (request : Call)
    (reply : request.Reply) (member : .answered request reply ∈ tree events) :
    allowed request := by
  induction run with
  | done | exhausted | pending | exit | die | exec | execFile => cases member
  | call answer single rest ih =>
    rw [tree_answered, List.mem_cons] at member
    rcases member with same | member
    · cases same
      exact (h reply).1
    · exact ih (h _).2 member
  | fork pid inChild rest ih_child ih =>
    rw [tree_forked, List.mem_cons, List.mem_append] at member
    rcases member with same | member | member
    · cases same
    · exact ih_child (h _).2 member
    · exact ih (h _).2 member

inductive IsStaging : Call → Prop
  | pipe : IsStaging .pipe
  | fork : IsStaging .fork
  | duplicateTo (source target : Descriptor) : IsStaging (.duplicateTo source target)
  | duplicateFrom (source least : Descriptor) : IsStaging (.duplicateFrom source least)
  | close (descriptor : Descriptor) : IsStaging (.close descriptor)
  | setSignal (signal : Nat) (ignored : Bool) : IsStaging (.setSignal signal ignored)
  | exec (program : String) (arguments : List String) : IsStaging (.exec program arguments)
  | wait (pid : Int) : IsStaging (.wait pid .block)
  | read (descriptor : Descriptor) (count : Nat) : IsStaging (.read descriptor count)
  | report (descriptor : Descriptor) {data : ByteArray} (short : data.size ≤ 4) :
    IsStaging (.write descriptor data)

theorem throughout_closeAll (descriptors : List Descriptor) :
    (closeAll descriptors).Throughout IsStaging := by
  refine (calls_closeAll descriptors).throughout.mono ?_
  rintro _ ⟨descriptor, -, rfl⟩
  exact .close descriptor

theorem throughout_writeLoop (descriptor : Descriptor) {data : ByteArray} (short : data.size ≤ 4)
    (turns : Nat) : (loop (writeTurn descriptor) turns data).Throughout IsStaging := by
  induction turns generalizing data with
  | zero => trivial
  | succ turns ih =>
    rw [loop_succ, writeTurn]
    split
    · trivial
    · rw [Action.bind_assoc]
      refine throughout_perform_bind (.report descriptor short) fun reply => ?_
      rcases reply with errno | _ | count
      · by_cases interrupted : errno = .interrupted
        · simpa [interrupted] using ih short
        · simp [interrupted, Throughout]
      · trivial
      · refine ih ?_
        simp only [ByteArray.size_extract]
        omega

namespace Channel

theorem throughout_create : create.Throughout IsStaging :=
  throughout_perform_bind .pipe fun reply => by cases reply <;> trivial

theorem throughout_report (reporter : Descriptor) (errno : Errno) :
    (report reporter errno).Throughout IsStaging := by
  have short : errno.toBytes.size ≤ 4 := Nat.le_refl 4
  exact (throughout_writeLoop reporter short patience).bind fun _ => throughout_closeAll _

theorem throughout_await (watcher : Descriptor) : (await watcher).Throughout IsStaging := by
  refine (calls_await watcher).throughout.mono ?_
  rintro _ (_ | _)
  · exact .read ..
  · exact .close watcher

end Channel

theorem ExecPlan.throughout_execWith (plan : ExecPlan) (input output : Descriptor) :
    (plan.execWith input output).Throughout IsStaging := by
  refine (@calls_execWith input output plan).throughout.mono ?_
  rintro _ (_ | _ | _ | _)
  · exact .duplicateTo ..
  · exact .duplicateTo ..
  · exact .setSignal ..
  · exact .exec ..

theorem throughout_spawn (plan : ExecPlan) (input output : Descriptor) :
    (spawn plan input output).Throughout IsStaging := by
  refine Channel.throughout_create.bind fun created => ?_
  cases created with
  | error errno => trivial
  | ok channel =>
    refine throughout_perform_bind .fork fun forked => ?_
    rcases forked with errno | _ | pid
    · exact (throughout_closeAll _).bind fun _ => trivial
    · refine (throughout_closeAll _).bind fun _ => (plan.throughout_execWith ..).bind fun _ => ?_
      exact (Channel.throughout_report _ _).bind fun _ => throughout_exit _
    · refine (throughout_closeAll _).bind fun _ => (Channel.throughout_await _).bind fun told => ?_
      cases told with
      | none => trivial
      | some errno => exact throughout_perform_bind (.wait pid) fun _ => trivial

theorem throughout_awaitStage (plan : ExecPlan) (child : Int) :
    (awaitStage plan child).Throughout IsStaging := by
  refine throughout_perform_bind (.wait child) fun reply => ?_
  cases reply with
  | error errno => trivial
  | ok report =>
    dsimp only
    split <;> trivial

theorem throughout_startStage (stage : Stage) (input : Descriptor) (scheduling : Scheduling) :
    (startStage stage input scheduling).Throughout IsStaging := by
  unfold startStage
  cases ExecPlan.ofStage stage with
  | error error => trivial
  | ok plan =>
    refine throughout_perform_bind .pipe fun reply => ?_
    rcases reply with errno | ⟨readEnd, writeEnd⟩
    · trivial
    refine (throughout_spawn _ _ _).bind fun spawned => ?_
    cases spawned with
    | error error => exact (throughout_closeAll _).bind fun _ => trivial
    | ok child =>
      refine (throughout_closeAll _).bind fun _ => ?_
      split
      · trivial
      · refine (throughout_awaitStage _ _).bind fun awaited => ?_
        cases awaited with
        | ok => trivial
        | error error => exact (throughout_closeAll _).bind fun _ => trivial

def IsJobCall (request : Call) : Prop :=
  IsStaging request ∨ request = .write standardOutput commandNotFound.toUTF8

theorem Action.Throughout.job {action : Action α} (h : action.Throughout IsStaging) :
    action.Throughout IsJobCall :=
  h.mono fun _ => .inl

theorem throughout_announceNotFound (mortal : Bool) :
    (announceNotFound mortal).Throughout IsJobCall :=
  (calls_announceNotFound mortal).throughout.mono fun _ => .inr

namespace Pipeline

theorem throughout_startEarlier (input : Descriptor) (flags : Flags) (scheduling : Scheduling)
    (carried : Option Descriptor) (stages : List Stage) :
    (startEarlier input flags scheduling carried stages).Throughout IsJobCall := by
  induction stages generalizing carried with
  | nil => trivial
  | cons stage rest ih =>
    unfold startEarlier
    split
    · exact (throughout_closeAll _).job.bind fun _ => trivial
    · refine (throughout_startStage ..).job.bind fun started => ?_
      cases started with
      | ok readEnd => exact (throughout_closeAll _).job.bind fun _ => ih (some readEnd)
      | error error =>
        refine (throughout_announceNotFound _).bind fun _ => ?_
        exact (throughout_closeAll _).job.bind fun _ => trivial

theorem throughout_becomeLast (pipeline : Pipeline) (input output : Descriptor) :
    (pipeline.becomeLast input output).Throughout IsJobCall := by
  unfold becomeLast
  cases ExecPlan.ofStage pipeline.last with
  | error error => exact (throughout_announceNotFound _).bind fun _ => trivial
  | ok plan =>
    refine Throughout.bind ?_ fun errno => trivial
    refine throughout_perform_bind (.inl (.duplicateFrom ..)) fun saved => ?_
    refine (plan.throughout_execWith ..).job.bind fun errno => ?_
    cases saved with
    | error errno => exact (throughout_announceNotFound _).bind fun _ => trivial
    | ok copy =>
      refine throughout_perform_bind (.inl (.duplicateTo ..)) fun _ => ?_
      refine (throughout_closeAll _).job.bind fun _ => ?_
      exact (throughout_announceNotFound _).bind fun _ => trivial

theorem throughout_supervise (pipeline : Pipeline) (input output : Descriptor) (flags : Flags)
    (scheduling : Scheduling) (reporter : Option Descriptor) :
    (pipeline.supervise input output flags scheduling reporter : Action α).Throughout
      IsJobCall := by
  have runs : (pipeline.run input output flags scheduling).Throughout IsJobCall := by
    refine (throughout_startEarlier ..).bind fun started => ?_
    cases started with
    | error failure => trivial
    | ok carried =>
      refine (throughout_becomeLast ..).bind fun _ => ?_
      exact (throughout_closeAll _).job.bind fun _ => trivial
  refine runs.bind fun failure => ?_
  cases reporter with
  | none => exact throughout_exit _
  | some reporter =>
    exact (Channel.throughout_report _ _).job.bind fun _ => throughout_exit _

theorem throughout_awaitJob (channel : Channel) (child : Int) :
    (awaitJob channel child).Throughout IsJobCall := by
  refine (throughout_closeAll _).job.bind fun _ => ?_
  refine (Channel.throughout_await _).job.bind fun failure => ?_
  refine throughout_perform_bind (.inl (.wait child)) fun reply => ?_
  cases reply with
  | error errno => trivial
  | ok report =>
    dsimp only
    split <;> trivial

theorem throughout_runAsJob (pipeline : Pipeline) (input output : Descriptor)
    (background : Bool) (flags : Flags) (scheduling : Scheduling) :
    (pipeline.runAsJob input output background flags scheduling).Throughout IsJobCall := by
  cases background with
  | true =>
    refine throughout_perform_bind (.inl .fork) fun forked => ?_
    rcases forked with errno | _ | pid
    · trivial
    · exact throughout_supervise ..
    · trivial
  | false =>
    refine Channel.throughout_create.job.bind fun created => ?_
    cases created with
    | error errno => trivial
    | ok channel =>
      refine throughout_perform_bind (.inl .fork) fun forked => ?_
      rcases forked with errno | _ | pid
      · exact (throughout_closeAll _).job.bind fun _ => trivial
      · exact (throughout_closeAll _).job.bind fun _ => throughout_supervise ..
      · exact throughout_awaitJob _ _

end Pipeline

end PipelineShell
