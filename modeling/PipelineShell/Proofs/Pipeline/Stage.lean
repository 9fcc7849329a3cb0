import PipelineShell.Proofs.Pipeline.Exec

namespace PipelineShell

open PipelineShell.Action

variable {plan : ExecPlan} {input output : Descriptor} {events : List Event} {table : Table}

inductive SpawnResult (plan : ExecPlan) (input output : Descriptor) (events : List Event) :
    Except RunError Int → Prop
  | started {pid : Int} {child : List Event}
    (forked : children events = [⟨pid, child, .replaced plan.program.toString plan.arguments⟩]) :
    SpawnResult plan input output events (.ok pid)
  | noPipe {errno : Errno} (forked : children events = [])
    (failed : .answered .pipe (.error errno) ∈ events) :
    SpawnResult plan input output events (.error (.system errno))
  | noFork {errno : Errno} (forked : children events = [])
    (failed : .answered .fork (.error errno) ∈ events) :
    SpawnResult plan input output events (.error (.system errno))
  | refused {pid : Int} {child : List Event} {fate : Fate} {errno : Errno}
    (forked : children events = [⟨pid, child, fate⟩])
    (other : ∀ program arguments, fate ≠ .replaced program arguments)
    (refused : Refused input output child errno) :
    SpawnResult plan input output events (.error (.exec plan.program errno))

theorem ExecPlan.confirm_cases {channel : Channel} {pid : Int} {result : Except RunError Int}
    (run : Runs (plan.confirm channel pid) events (.value result)) :
    ∃ closed awaiting answer tail,
      events = .answered (.close channel.reporter) closed :: awaiting ++ tail ∧
        Runs (Channel.await channel.watcher) awaiting (.value answer) ∧
        Only (· = .wait pid .block) tail ∧
        result = (match answer with
          | none => .ok pid
          | some errno => .error (.exec plan.program errno)) := by
  rcases (runs_call_iff rfl).1 run with ⟨-, ⟨⟩⟩ | ⟨closed, rest, rfl, awaits⟩
  change Runs (Channel.await channel.watcher >>= _) rest _ at awaits
  rw [Runs.bind_value_iff (Channel.steady_await _).contained] at awaits
  obtain ⟨awaiting, tail, answer, rfl, awaits, returns⟩ := awaits
  refine ⟨closed, awaiting, answer, tail, rfl, awaits, ?_⟩
  cases answer with
  | none =>
    obtain ⟨rfl, ⟨⟩⟩ := runs_done_iff.1 returns
    exact ⟨only_nil, rfl⟩
  | some errno =>
    rcases (runs_perform_bind_iff rfl).1 returns with ⟨-, ⟨⟩⟩ | ⟨reply, _, rfl, last⟩
    obtain ⟨rfl, ⟨⟩⟩ := runs_done_iff.1 last
    exact ⟨by simp, rfl⟩

theorem spawn_parts {result : Except RunError Int}
    (run : Runs (spawn plan input output) events (.value result)) :
    (∃ errno, result = .error (.system errno) ∧ events = [.answered .pipe (.error errno)]) ∨
    (∃ readEnd writeEnd errno closing, result = .error (.system errno) ∧
      events = .answered .pipe (.ok (readEnd, writeEnd)) :: .answered .fork (.error errno) ::
        closing ∧
      Only (IsClose [writeEnd, readEnd]) closing) ∨
    ∃ readEnd writeEnd pid child fate rest,
      events = .answered .pipe (.ok (readEnd, writeEnd)) :: .forked pid child fate :: rest ∧
      Runs (plan.enter ⟨readEnd, writeEnd⟩ input output : Action (Except RunError Int)) child
        (.ended fate) ∧
      Runs (plan.confirm ⟨readEnd, writeEnd⟩ pid) rest (.value result) := by
  rw [spawn, Channel.create, Action.bind_assoc] at run
  rcases (runs_perform_bind_iff rfl).1 run with ⟨-, ⟨⟩⟩ | ⟨reply, rest, rfl, forks⟩
  rcases reply with errno | ⟨readEnd, writeEnd⟩
  · obtain ⟨rfl, ⟨⟩⟩ := runs_done_iff.1 forks
    exact .inl ⟨errno, rfl, rfl⟩
  · rcases runs_fork_iff.1 forks with ⟨-, ⟨⟩⟩ | ⟨errno, rest, rfl, closes⟩ |
      ⟨pid, child, fate, rest, rfl, inChild, inParent⟩
    · obtain ⟨closing, rest, rfl, only, returns⟩ := runs_closeAll_bind closes nofun
      obtain ⟨rfl, ⟨⟩⟩ := runs_done_iff.1 returns
      exact .inr (.inl ⟨readEnd, writeEnd, errno, closing, rfl, by simp, only⟩)
    · exact .inr (.inr ⟨readEnd, writeEnd, pid, child, fate, rest, rfl, inChild, inParent⟩)

theorem spawn_cases {result : Except RunError Int}
    (run : Runs (spawn plan input output) events (.value result)) (lawful : Lawful table events)
    (standing : ∀ descriptor ∈ [standardInput, standardOutput, input, output],
      table descriptor ≠ .nothing) :
    table.Keeps (table.afterAll events) ∧ (∀ write ∈ writes events, write.2.size ≤ 4) ∧
      SpawnResult plan input output events result := by
  rcases spawn_parts run with ⟨errno, rfl, rfl⟩ |
    ⟨readEnd, writeEnd, errno, closing, rfl, rfl, only⟩ |
    ⟨readEnd, writeEnd, pid, child, fate, rest, rfl, inChild, inParent⟩
  · exact ⟨fun _ _ => rfl, by rintro _ ⟨⟩, .noPipe rfl (.head _)⟩
  · obtain ⟨-, free_read, free_write⟩ := lawful.1.pipe
    refine ⟨fun descriptor isOpen => Table.afterAll_apply (fun request reply member => ?_) table,
      ?_, .noFork ?_ ?_⟩
    · have not_read := Table.ne_of_isOpen isOpen free_read
      have not_write := Table.ne_of_isOpen isOpen free_write
      simp only [List.mem_cons] at member
      rcases member with same | same | member
      · cases same
        exact ⟨rfl, by simp [Call.gains, not_read, not_write]⟩
      · cases same
        exact ⟨rfl, by simp [Call.gains]⟩
      · have closes := only.of_mem member
        exact ⟨Call.rebinds_of_names (closes.unnamed (by simp [not_read, not_write])),
          by simp [closes.gains_eq]⟩
    · simp [writes_answered, only.writes_eq (by simp [IsClose])]
    · simpa using only.children_eq
    · exact .tail _ (.head _)
  · obtain ⟨apart_ends, free_read, free_write⟩ := lawful.1.pipe
    obtain ⟨closed, awaiting, answer, tail, rfl, awaits, only_tail, rfl⟩ :=
      plan.confirm_cases inParent
    have apart : ∀ other ∈ [standardInput, standardOutput, input, output, readEnd],
        other ≠ writeEnd := by
      intro other member
      rcases (List.mem_append (s := [_, _, _, _])).1 member with member | member
      · exact Table.ne_of_isOpen (standing other member) free_write
      · exact List.mem_singleton.1 member ▸ apart_ends
    obtain ⟨told, entered⟩ := ExecPlan.runs_enter inChild apart
    have delivers := lawful.2.1 readEnd writeEnd pid child fate closed _ rfl
      entered.closes_first entered.tells.onlyReports
    have only_awaiting := awaits.only (Channel.calls_await readEnd)
    refine ⟨fun descriptor isOpen => Table.afterAll_apply (fun request reply member => ?_) table,
      ?_, ?_⟩
    · have not_read := Table.ne_of_isOpen isOpen free_read
      have not_write := Table.ne_of_isOpen isOpen free_write
      simp only [List.mem_cons, List.mem_append] at member
      rcases member with same | same | (same | member) | member
      · cases same
        exact ⟨rfl, by simp [Call.gains, not_read, not_write]⟩
      · cases same
      · cases same
        exact ⟨by simpa [Call.rebinds] using not_write.symm, by simp [Call.gains]⟩
      · have awaiting := only_awaiting.of_mem member
        exact ⟨Call.rebinds_of_names (awaiting.unnamed not_read), by simp [awaiting.gains_eq]⟩
      · obtain rfl := only_tail.of_mem member
        exact ⟨rfl, by simp [Call.gains]⟩
    · have silent : writes awaiting = [] := only_awaiting.writes_eq fun _ _ await => by cases await
      have silent_tail : writes tail = [] := only_tail.writes_eq (by simp)
      simpa [writes_answered, silent, silent_tail] using entered.short
    · have forked : children (.answered .pipe (.ok (readEnd, writeEnd)) ::
          .forked pid child fate :: (.answered (.close writeEnd) closed :: awaiting ++ tail)) =
            [⟨pid, child, fate⟩] := by
        simp [only_awaiting.children_eq, only_tail.children_eq]
      obtain ⟨rfl, gone⟩ := Channel.await_tells awaits entered.tells delivers
      cases answer with
      | none =>
        obtain rfl := entered.replaced rfl (gone rfl)
        exact .started forked
      | some errno =>
        obtain ⟨refused, other⟩ := entered.refused errno rfl
        exact .refused forked other refused

/-- The stage runs its program as the only child that is forked. Under sequential scheduling it has
ended, and was not killed. -/
inductive Launched (scheduling : Scheduling) (stage : Stage) (events : List Event) : Prop
  | intro {program : Word} {arguments : List String} {pid : Int} {child : List Event}
    (asks : stage.Asks program arguments)
    (forked : children events = [⟨pid, child, .replaced program.toString arguments⟩])
    (ended : scheduling = .sequential → ∃ report status,
      .answered (.wait pid .block) (.ok report) ∈ events ∧
        WaitStatus.ofReport report = .ok status ∧ ∀ signal, status ≠ .signaled signal)

/-- Why a stage has not been started, or not been waited for until its end. -/
inductive Fault (scheduling : Scheduling) (stage : Stage) (events : List Event) : RunError → Prop
  | unusable {error : RunError} (forked : children events = []) (h : stage.Unusable error) :
    Fault scheduling stage events error
  | noPipe {errno : Errno} (forked : children events = [])
    (failed : .answered .pipe (.error errno) ∈ events) :
    Fault scheduling stage events (.system errno)
  | noFork {errno : Errno} (forked : children events = [])
    (failed : .answered .fork (.error errno) ∈ events) :
    Fault scheduling stage events (.system errno)
  | refused {program : Word} {arguments : List String} {pid : Int} {child : List Event}
    {fate : Fate} {input output : Descriptor} {errno : Errno} (asks : stage.Asks program arguments)
    (forked : children events = [⟨pid, child, fate⟩])
    (other : ∀ program arguments, fate ≠ .replaced program arguments)
    (refused : Refused input output child errno) :
    Fault scheduling stage events (.exec program errno)
  | waitFailed {program : Word} {arguments : List String} {pid : Int} {child : List Event}
    {errno : Errno} (asks : stage.Asks program arguments) (sequential : scheduling = .sequential)
    (forked : children events = [⟨pid, child, .replaced program.toString arguments⟩])
    (failed : .answered (.wait pid .block) (.error errno) ∈ events) :
    Fault scheduling stage events (.system errno)
  | unknownEnd {program : Word} {arguments : List String} {pid : Int} {child : List Event}
    {report : ChildReport} {errno : Errno} (asks : stage.Asks program arguments)
    (sequential : scheduling = .sequential)
    (forked : children events = [⟨pid, child, .replaced program.toString arguments⟩])
    (waited : .answered (.wait pid .block) (.ok report) ∈ events)
    (unknown : WaitStatus.ofReport report = .error errno) :
    Fault scheduling stage events (.system errno)
  | killed {program : Word} {arguments : List String} {pid : Int} {child : List Event}
    {report : ChildReport} {signal : Signal} (asks : stage.Asks program arguments)
    (sequential : scheduling = .sequential)
    (forked : children events = [⟨pid, child, .replaced program.toString arguments⟩])
    (waited : .answered (.wait pid .block) (.ok report) ∈ events)
    (decoded : WaitStatus.ofReport report = .ok (.signaled signal)) :
    Fault scheduling stage events (.killed program signal)

def awaited (plan : ExecPlan) : Except Errno ChildReport → Except RunError Unit
  | .error errno => .error (.system errno)
  | .ok report =>
    match WaitStatus.ofReport report with
    | .error errno => .error (.system errno)
    | .ok (.signaled signal) => .error (.killed plan.program signal)
    | .ok _ => .ok ()

theorem runs_awaitStage {pid : Int} {result : Except RunError Unit}
    (run : Runs (awaitStage plan pid) events (.value result)) :
    ∃ reply, events = [.answered (.wait pid .block) reply] ∧ result = awaited plan reply := by
  rcases (runs_perform_bind_iff rfl).1 run with ⟨-, ⟨⟩⟩ | ⟨reply, rest, rfl, returns⟩
  rcases reply with errno | report
  · obtain ⟨rfl, ⟨⟩⟩ := runs_done_iff.1 returns
    exact ⟨.error errno, rfl, rfl⟩
  · refine ⟨.ok report, ?_⟩
    dsimp only at returns
    unfold awaited
    split at returns <;>
    · obtain ⟨rfl, ⟨⟩⟩ := runs_done_iff.1 returns
      simp_all

theorem awaited_ok {reply : Except Errno ChildReport} (h : awaited plan reply = .ok ()) :
    ∃ report status, reply = .ok report ∧ WaitStatus.ofReport report = .ok status ∧
      ∀ signal, status ≠ .signaled signal := by
  rcases reply with errno | report
  · cases h
  · dsimp only [awaited] at h
    split at h
    · cases h
    · cases h
    · rename_i status other decoded
      exact ⟨report, status, rfl, decoded, fun signal same => other signal same⟩

def IsTidying (ends : List Descriptor) (request : Call) : Prop :=
  IsClose ends request ∨ ∃ pid, request = .wait pid .block

namespace IsTidying

variable {ends : List Descriptor} {request : Call}

theorem of_subset {larger : List Descriptor} (tidying : IsTidying ends request)
    (subset : ends ⊆ larger) : IsTidying larger request :=
  tidying.imp_left fun closes => closes.of_subset subset

theorem unnamed (tidying : IsTidying ends request) {descriptor : Descriptor}
    (other : descriptor ∉ ends) : request.names descriptor = false := by
  rcases tidying with closes | ⟨pid, rfl⟩
  · exact closes.unnamed other
  · rfl

theorem gains_eq (tidying : IsTidying ends request) (reply : request.Reply) :
    request.gains reply = [] := by
  rcases tidying with closes | ⟨pid, rfl⟩
  · exact closes.gains_eq reply
  · rfl

end IsTidying

inductive Tidies (scheduling : Scheduling) (plan : ExecPlan) (readEnd writeEnd : Descriptor)
    (events : List Event) : Except RunError Int → Except RunError Descriptor → Prop
  | failed {error : RunError} (only : Only (IsTidying [writeEnd, readEnd]) events) :
    Tidies scheduling plan readEnd writeEnd events (.error error) (.error error)
  | concurrent {pid : Int} (h : scheduling = .concurrent)
    (only : Only (IsTidying [writeEnd]) events) :
    Tidies scheduling plan readEnd writeEnd events (.ok pid) (.ok readEnd)
  | ended {pid : Int} {reply : Except Errno ChildReport} (waited : awaited plan reply = .ok ())
    (member : .answered (.wait pid .block) reply ∈ events)
    (only : Only (IsTidying [writeEnd]) events) :
    Tidies scheduling plan readEnd writeEnd events (.ok pid) (.ok readEnd)
  | faulty {pid : Int} {reply : Except Errno ChildReport} {error : RunError}
    (h : scheduling = .sequential) (waited : awaited plan reply = .error error)
    (member : .answered (.wait pid .block) reply ∈ events)
    (only : Only (IsTidying [writeEnd, readEnd]) events) :
    Tidies scheduling plan readEnd writeEnd events (.ok pid) (.error error)

theorem startStage_parts {stage : Stage} {scheduling : Scheduling}
    {result : Except RunError Descriptor}
    (run : Runs (startStage stage input scheduling) events (.value result)) :
    (∃ error, ExecPlan.ofStage stage = .error error ∧ result = .error error ∧ events = []) ∨
    (∃ plan errno, ExecPlan.ofStage stage = .ok plan ∧ result = .error (.system errno) ∧
      events = [.answered .pipe (.error errno)]) ∨
    ∃ plan readEnd writeEnd spawning spawned tail, ExecPlan.ofStage stage = .ok plan ∧
      events = .answered .pipe (.ok (readEnd, writeEnd)) :: (spawning ++ tail) ∧
      Runs (spawn plan input writeEnd) spawning (.value spawned) ∧
      Tidies scheduling plan readEnd writeEnd tail spawned result := by
  unfold startStage at run
  cases planned : ExecPlan.ofStage stage with
  | error error =>
    rw [planned] at run
    obtain ⟨rfl, ⟨⟩⟩ := runs_done_iff.1 run
    exact .inl ⟨error, rfl, rfl, rfl⟩
  | ok plan =>
    rw [planned] at run
    refine .inr ?_
    rcases (runs_perform_bind_iff rfl).1 run with ⟨-, ⟨⟩⟩ | ⟨reply, rest, rfl, spawns⟩
    rcases reply with errno | ⟨readEnd, writeEnd⟩
    · obtain ⟨rfl, ⟨⟩⟩ := runs_done_iff.1 spawns
      exact .inl ⟨plan, errno, rfl, rfl, rfl⟩
    · dsimp only at spawns
      rw [Runs.bind_value_iff (steady_spawn ..).contained] at spawns
      obtain ⟨spawning, tail, spawned, rfl, spawns, tidies⟩ := spawns
      refine .inr ⟨plan, readEnd, writeEnd, spawning, spawned, tail, rfl, rfl, spawns, ?_⟩
      rcases spawned with error | pid
      · obtain ⟨closing, _, rfl, only, returns⟩ := runs_closeAll_bind tidies nofun
        obtain ⟨rfl, ⟨⟩⟩ := runs_done_iff.1 returns
        exact .failed (by simpa using only.mono fun _ => .inl)
      · obtain ⟨closing, rest, rfl, only, waits⟩ := runs_closeAll_bind tidies nofun
        split at waits
        · rename_i concurrent
          obtain ⟨rfl, ⟨⟩⟩ := runs_done_iff.1 waits
          exact .concurrent concurrent (by simpa using only.mono fun _ => .inl)
        · rename_i not_concurrent
          have sequential : scheduling = .sequential := by
            cases scheduling
            · exact absurd rfl not_concurrent
            · rfl
          rw [Runs.bind_value_iff (steady_awaitStage ..).contained] at waits
          obtain ⟨waiting, last, after, rfl, waits, returns⟩ := waits
          obtain ⟨reply, rfl, rfl⟩ := runs_awaitStage waits
          cases waited : awaited plan reply with
          | ok _ =>
            rw [waited] at returns
            obtain ⟨rfl, ⟨⟩⟩ := runs_done_iff.1 returns
            refine .ended waited (by simp) ?_
            exact only_append.2 ⟨only.mono fun _ => .inl, by simp [IsTidying]⟩
          | error error =>
            rw [waited] at returns
            obtain ⟨closing', _, rfl, only', returns⟩ := runs_closeAll_bind returns nofun
            obtain ⟨rfl, ⟨⟩⟩ := runs_done_iff.1 returns
            refine .faulty sequential waited (by simp) ?_
            refine only_append.2
              ⟨only.mono fun _ closes => .inl ?_, only_answered.2 ⟨.inr ⟨_, rfl⟩, ?_⟩⟩
            · exact closes.of_subset (by simp)
            · simpa using only'.mono fun _ closes => .inl (closes.of_subset (by simp))

theorem Tidies.only {scheduling : Scheduling} {readEnd writeEnd : Descriptor}
    {spawned : Except RunError Int} {result : Except RunError Descriptor}
    (tidies : Tidies scheduling plan readEnd writeEnd events spawned result) :
    Only (IsTidying [writeEnd, readEnd]) events := by
  cases tidies with
  | failed only | faulty _ _ _ only => exact only
  | concurrent _ only | ended _ _ only =>
    exact only.mono fun _ tidying => tidying.of_subset (by simp)

def StageResult (scheduling : Scheduling) (stage : Stage) (table : Table) (events : List Event) :
    Except RunError Descriptor → Prop
  | .ok readEnd => Launched scheduling stage events ∧ table readEnd = .nothing ∧
    table.afterAll events readEnd ≠ .nothing
  | .error error => Fault scheduling stage events error

theorem Tidies.result {stage : Stage} {scheduling : Scheduling} {readEnd writeEnd : Descriptor}
    {spawned : Except RunError Int} {result : Except RunError Descriptor}
    {spawning tail events : List Event}
    (tidies : Tidies scheduling plan readEnd writeEnd tail spawned result)
    (planned : ExecPlan.ofStage stage = .ok plan)
    (spawns : SpawnResult plan input writeEnd spawning spawned)
    (included : ∀ event ∈ spawning ++ tail, event ∈ events)
    (forked : children events = children spawning)
    (free : table readEnd = .nothing)
    (isOpen : result = .ok readEnd → table.afterAll events readEnd ≠ .nothing) :
    StageResult scheduling stage table events result := by
  have asks := ExecPlan.ofStage_ok planned
  cases tidies with
  | failed only =>
    cases spawns with
    | noPipe none failed => exact .noPipe (forked.trans none) (included _ (by simp [failed]))
    | noFork none failed => exact .noFork (forked.trans none) (included _ (by simp [failed]))
    | refused one other refused => exact .refused asks (forked.trans one) other refused
  | concurrent h only =>
    cases spawns with
    | started one =>
      refine ⟨.intro asks (forked.trans one) fun sequential => ?_, free, isOpen rfl⟩
      rw [h] at sequential
      cases sequential
  | ended waited member only =>
    cases spawns with
    | started one =>
      obtain ⟨report, status, rfl, decoded, alive⟩ := awaited_ok waited
      refine ⟨.intro asks (forked.trans one) fun _ => ?_, free, isOpen rfl⟩
      exact ⟨report, status, included _ (by simp [member]), decoded, alive⟩
  | @faulty pid reply error h waited member only =>
    have member := included _ (List.mem_append_right spawning member)
    cases spawns with
    | started one =>
      have one := forked.trans one
      rcases reply with errno | report
      · cases waited
        exact .waitFailed asks h one member
      · dsimp only [awaited] at waited
        split at waited
        · cases waited
          exact .unknownEnd asks h one member ‹_›
        · cases waited
          exact .killed asks h one member ‹_›
        · cases waited

theorem startStage_cases {stage : Stage} {scheduling : Scheduling}
    {result : Except RunError Descriptor}
    (run : Runs (startStage stage input scheduling) events (.value result))
    (lawful : Lawful table events)
    (standing : ∀ descriptor ∈ [standardInput, standardOutput, input],
      table descriptor ≠ .nothing) :
    table.Keeps (table.afterAll events) ∧ (∀ write ∈ writes events, write.2.size ≤ 4) ∧
      StageResult scheduling stage table events result := by
  rcases startStage_parts run with ⟨error, planned, rfl, rfl⟩ | ⟨plan, errno, planned, rfl, rfl⟩ |
    ⟨plan, readEnd, writeEnd, spawning, spawned, tail, planned, rfl, spawns, tidies⟩
  · exact ⟨.refl _, nofun, .unusable rfl (ExecPlan.ofStage_error planned)⟩
  · exact ⟨.refl _, nofun, .noPipe rfl (.head _)⟩
  obtain ⟨lawful_pipe, -, lawful⟩ := lawful
  obtain ⟨apart, free_read, free_write⟩ := lawful_pipe.pipe
  have standing' : ∀ descriptor ∈ [standardInput, standardOutput, input, writeEnd],
      table.after (.answered .pipe (.ok (readEnd, writeEnd))) descriptor ≠ .nothing := by
    intro descriptor member
    rcases (List.mem_append (s := [_, _, _])).1 member with member | member
    · exact lawful_pipe.keeps_pipe.isOpen (standing descriptor member)
    · obtain rfl := List.mem_singleton.1 member
      simp [Table.after_pipe_writeEnd]
  obtain ⟨keeps, short, result_spawn⟩ := spawn_cases spawns lawful.append.1 standing'
  have only := tidies.only
  have tidied : ∀ {ends descriptor}, Only (IsTidying ends) tail → descriptor ∉ ends →
      ∀ table : Table, table.afterAll tail descriptor = table descriptor :=
    fun only other => Table.afterAll_apply_of_only only fun _ tidying =>
      ⟨Call.rebinds_of_names (tidying.unnamed other), tidying.gains_eq⟩
  have forked : children (.answered .pipe (.ok (readEnd, writeEnd)) :: (spawning ++ tail)) =
      children spawning := by
    simp [only.children_eq]
  refine ⟨fun descriptor isOpen => ?_, ?_, ?_⟩
  · have not_read := Table.ne_of_isOpen isOpen free_read
    have not_write := Table.ne_of_isOpen isOpen free_write
    rw [Table.afterAll_cons, Table.afterAll_append, tidied only (by simp [not_read, not_write])]
    exact lawful_pipe.keeps_pipe.trans keeps descriptor isOpen
  · have silent : writes tail = [] := only.writes_eq (by simp [IsTidying, IsClose])
    simpa [writes_answered, silent] using short
  · refine tidies.result planned result_spawn (fun event => .tail _) forked free_read fun ok => ?_
    have only_write : Only (IsTidying [writeEnd]) tail := by
      cases tidies with
      | failed | faulty => cases ok
      | concurrent _ only | ended _ _ only => exact only
    rw [Table.afterAll_cons, Table.afterAll_append, tidied only_write (by simpa using apart)]
    exact keeps.isOpen (by simp [Table.after_pipe_readEnd _ apart])

end PipelineShell
