import PipelineShell.Proofs.Pipeline.Exec
import PipelineShell.Proofs.System.Care

namespace PipelineShell

open PipelineShell.Action

variable {α : Type} {table base : Table} {input output : Descriptor} {plan : ExecPlan}
  {scheduling : Scheduling} {flags : Flags}

/-! ## Tables -/

def Table.opened (table : Table) : Option Descriptor → Table
  | none => table
  | some descriptor => Function.update table descriptor .newer

section

variable {readEnd writeEnd : Descriptor}

def Table.piped (table : Table) (readEnd writeEnd : Descriptor) : Table :=
  table.after (.answered .pipe (.ok (readEnd, writeEnd)))

theorem Table.without_swap (table : Table) (first second : Descriptor) :
    table.without [first, second] = table.without [second, first] := by
  funext descriptor
  simp [without, or_comm]

structure Table.Offers (table : Table) (readEnd writeEnd : Descriptor) : Prop where
  apart : readEnd ≠ writeEnd
  read_free : table readEnd = .nothing
  write_free : table writeEnd = .nothing

namespace Table.Offers

theorem keeps (offers : table.Offers readEnd writeEnd) :
    table.Keeps (table.piped readEnd writeEnd) := by
  intro descriptor isOpen
  have not_read := ne_of_isOpen isOpen offers.read_free
  have not_write := ne_of_isOpen isOpen offers.write_free
  simp [piped, after, not_read, not_write]

theorem keeps_without (offers : table.Offers readEnd writeEnd) :
    table.Keeps ((table.piped readEnd writeEnd).without [readEnd]) := by
  intro descriptor isOpen
  have not_read := ne_of_isOpen isOpen offers.read_free
  simp [without, not_read, offers.keeps descriptor isOpen]

theorem without_writeEnd (offers : table.Offers readEnd writeEnd) :
    (table.piped readEnd writeEnd).without [writeEnd] = table.opened (some readEnd) := by
  funext descriptor
  by_cases same_write : descriptor = writeEnd
  · subst same_write
    simp [without, opened, offers.apart.symm, offers.write_free]
  · by_cases same_read : descriptor = readEnd <;>
      simp [without, opened, piped, after, same_write, same_read, offers.apart]

theorem without_readEnd (offers : table.Offers readEnd writeEnd) :
    (table.opened (some readEnd)).without [readEnd] = table := by
  funext descriptor
  by_cases same : descriptor = readEnd
  · subst same
    simp [without, offers.read_free]
  · simp [without, opened, same]

theorem without_both (offers : table.Offers readEnd writeEnd) :
    (table.piped readEnd writeEnd).without [writeEnd, readEnd] = table := by
  calc (table.piped readEnd writeEnd).without [writeEnd, readEnd]
      = ((table.piped readEnd writeEnd).without [writeEnd]).without [readEnd] := by
        funext descriptor
        by_cases same : descriptor = writeEnd <;> simp [without, same]
    _ = table := by rw [offers.without_writeEnd, offers.without_readEnd]

end Table.Offers

end

theorem Table.Standing.mono {later : Table} (standing : table.Standing)
    (keeps : table.Keeps later) : later.Standing :=
  fun descriptor standard => keeps.isOpen (standing descriptor standard)

structure Table.Opens (table : Table) (given : Option Descriptor) (later : Table) : Prop where
  free : ∀ descriptor ∈ given, table descriptor = .nothing
  eq : later = table.opened given

namespace Table.Opens

variable {given carried : Option Descriptor} {later : Table} {readEnd : Descriptor}

theorem none (table : Table) : table.Opens .none table :=
  ⟨nofun, rfl⟩

theorem one {descriptor : Descriptor} (free : table descriptor = .nothing) :
    table.Opens (some descriptor) (table.opened (some descriptor)) := by
  refine ⟨?_, rfl⟩
  rintro _ ⟨⟩
  exact free

theorem keeps (opens : table.Opens given later) : table.Keeps later := by
  intro descriptor isOpen
  obtain ⟨free, rfl⟩ := opens
  cases given with
  | none => rfl
  | some other => simp [opened, ne_of_isOpen isOpen (free other rfl)]

theorem without_eq (opens : table.Opens given later) : later.without given.toList = table := by
  obtain ⟨free, rfl⟩ := opens
  funext descriptor
  cases given with
  | none => rfl
  | some other =>
    by_cases same : descriptor = other
    · subst same
      simp [without, free descriptor rfl]
    · simp [without, opened, same]

theorem getD_isOpen (opens : table.Opens given later) (isOpen : table input ≠ .nothing) :
    later (given.getD input) ≠ .nothing := by
  obtain ⟨free, rfl⟩ := opens
  cases given with
  | none => exact isOpen
  | some other => simp [opened]

theorem next (opens : base.Opens carried table) (opens' : table.Opens given later) :
    base.Opens given (later.without carried.toList) := by
  obtain ⟨free, rfl⟩ := opens
  obtain ⟨free', rfl⟩ := opens'
  cases carried with
  | none => exact ⟨free', funext fun _ => rfl⟩
  | some other =>
    cases given with
    | none => exact ⟨nofun, without_eq ⟨free, rfl⟩⟩
    | some readEnd =>
      have read_free := free' readEnd rfl
      have apart : readEnd ≠ other := by
        rintro rfl
        simp [opened] at read_free
      refine ⟨?_, funext fun descriptor => ?_⟩
      · rintro _ ⟨⟩
        simpa [opened, apart] using read_free
      · by_cases same : descriptor = other
        · subst same
          simp [without, opened, apart.symm, free descriptor rfl]
        · by_cases same_read : descriptor = readEnd <;>
            simp [without, opened, same, same_read, apart]

end Table.Opens

/-! ## Channels -/

namespace Channel

def IsNew (table : Table) (channel : Channel) (later : Table) : Prop :=
  table.Offers channel.watcher channel.reporter ∧
    later = table.piped channel.watcher channel.reporter

theorem careful_create : create.Careful (OrUnchanged table (IsNew table)) table := by
  refine careful_perform_bind trivial fun reply lawful => ?_
  rcases reply with errno | ⟨readEnd, writeEnd⟩
  · exact rfl
  · obtain ⟨apart, free_read, free_write⟩ := lawful.pipe
    exact ⟨⟨apart, free_read, free_write⟩, rfl⟩

theorem careful_await {watcher : Descriptor} (above : 2 < watcher) :
    (await watcher).Careful (fun _ later => later = table.without [watcher]) table := by
  have reads : (readFull watcher 4).Careful (fun _ later => later = table) table := by
    have calls : (readFull watcher 4).Calls fun request => ∃ count, request = .read watcher count := by
      refine calls_loop (fun data => ?_) _ _
      unfold readTurn
      split
      · trivial
      · refine calls_perform_bind ⟨_, rfl⟩ rfl fun reply => ?_
        cases reply <;> trivial
    refine calls.careful ?_
    rintro _ ⟨count, rfl⟩ _
    exact ⟨trivial, fun _ => rfl⟩
  refine reads.bind fun answer later same => ?_
  refine (careful_closeAll (by simpa using above)).bind fun _ closed same' => ?_
  subst same same'
  cases answer <;> rfl

theorem careful_report {reporter : Descriptor} (above : 2 < reporter) (errno : Errno) :
    (report reporter errno).Careful (fun _ _ => True) table := by
  have writes : (writeAll reporter errno.toBytes).Careful (fun _ later => later = table) table := by
    refine (calls_writeAll ..).careful ?_
    rintro _ ⟨part, rfl⟩ _
    exact ⟨trivial, fun _ => rfl⟩
  exact writes.bind fun _ _ _ =>
    (careful_closeAll (by simpa using above)).mono fun _ _ _ => trivial

end Channel

/-! ## Stages -/

theorem careful_announceNotFound {mortal : Bool} :
    (announceNotFound mortal).Careful (fun _ later => later = table) table :=
  (calls_announceNotFound mortal).careful <| by
    rintro _ rfl _
    exact ⟨trivial, fun _ => rfl⟩

theorem careful_attach {source target : Descriptor} (isOpen : table source ≠ .nothing)
    (standard : target ≤ 2) :
    (attach source target).Careful (fun _ later =>
      (∀ descriptor ≠ target, later descriptor = table descriptor) ∧
        (later target = table target ∨ later target = table source)) table := by
  unfold attach
  split
  · exact ⟨fun _ _ => rfl, .inl rfl⟩
  · refine ⟨⟨isOpen, standard⟩, fun reply _ => ?_⟩
    rcases reply with errno | ⟨⟩
    · exact ⟨fun _ _ => rfl, .inl rfl⟩
    · refine ⟨fun descriptor apart => ?_, .inr ?_⟩ <;> simp [Table.after, *]

theorem careful_attachStreams (input_open : table input ≠ .nothing)
    (output_open : table output ≠ .nothing) :
    (attachStreams input output).Careful
      (fun _ later => ∀ descriptor, 2 < descriptor → later descriptor = table descriptor) table := by
  have above_input : ∀ descriptor, 2 < descriptor → descriptor ≠ standardInput := fun _ above =>
    Nat.ne_of_gt (Nat.lt_trans (by decide) above)
  have above_output : ∀ descriptor, 2 < descriptor → descriptor ≠ standardOutput := fun _ above =>
    Nat.ne_of_gt (Nat.lt_trans (by decide) above)
  refine (careful_attach input_open (by decide)).bind fun attached later ⟨others, connected⟩ => ?_
  rcases attached with errno | ⟨⟩
  · exact fun descriptor above => others descriptor (above_input descriptor above)
  · -- The output may have been standard input, and then it is what the input is.
    have still_open : later output ≠ .nothing := by
      by_cases overwritten : output = standardInput
      · subst overwritten
        rcases connected with same | same <;> rw [same] <;> assumption
      · rwa [others output overwritten]
    refine (careful_attach still_open (by decide)).mono fun _ last ⟨others', _⟩ => ?_
    intro descriptor above
    rw [others' descriptor (above_output descriptor above),
      others descriptor (above_input descriptor above)]

namespace ExecPlan

theorem careful_exec (plan : ExecPlan) :
    plan.exec.Careful (fun _ later => later = table) table :=
  ⟨trivial, fun _ _ => ⟨trivial, fun _ _ => ⟨trivial, fun _ _ => rfl⟩⟩⟩

theorem careful_execWith (input_open : table input ≠ .nothing)
    (output_open : table output ≠ .nothing) :
    (plan.execWith input output).Careful
      (fun _ later => ∀ descriptor, 2 < descriptor → later descriptor = table descriptor) table := by
  refine (careful_attachStreams input_open output_open).bind
    fun attached later others => ?_
  rcases attached with errno | ⟨⟩
  · exact others
  · refine plan.careful_exec.mono ?_
    rintro _ _ rfl
    exact others

theorem careful_enter {channel : Channel} {post : α → Table → Prop} (standing : table.Standing)
    (input_open : table input ≠ .nothing) (output_open : table output ≠ .nothing)
    (offers : table.Offers channel.watcher channel.reporter) :
    (plan.enter channel input output : Action α).Careful post
      (table.piped channel.watcher channel.reporter) := by
  have watcher_above := standing.above offers.read_free
  have reporter_above := standing.above offers.write_free
  refine (careful_closeAll (by simpa using watcher_above)).bind fun _ closed same => ?_
  subst same
  have keeps := offers.keeps_without
  refine (careful_execWith (keeps.isOpen input_open) (keeps.isOpen output_open)).bind
    fun failure _ _ => ?_
  exact (Channel.careful_report reporter_above failure.errno).bind fun _ _ _ => careful_exit _

theorem careful_confirm {channel : Channel} {pid : Int} (standing : table.Standing)
    (offers : table.Offers channel.watcher channel.reporter) :
    (plan.confirm channel pid).Careful (fun _ later => later = table)
      (table.piped channel.watcher channel.reporter) := by
  have watcher_above := standing.above offers.read_free
  have reporter_above := standing.above offers.write_free
  refine (careful_closeAll (by simpa using reporter_above)).bind fun _ closed same => ?_
  refine (Channel.careful_await watcher_above).bind fun answer awaited same' => ?_
  subst same same'
  rw [offers.without_writeEnd, offers.without_readEnd]
  cases answer with
  | none => exact rfl
  | some errno => exact ⟨trivial, fun _ _ => rfl⟩

end ExecPlan

theorem careful_spawn (standing : table.Standing) (input_open : table input ≠ .nothing)
    (output_open : table output ≠ .nothing) :
    (spawn plan input output).Careful (fun _ later => later = table) table := by
  refine Channel.careful_create.bind fun created made isNew => ?_
  cases created with
  | error errno => exact isNew
  | ok channel =>
    obtain ⟨offers, rfl⟩ := isNew
    have watcher_above := standing.above offers.read_free
    have reporter_above := standing.above offers.write_free
    refine careful_fork_bind (fun errno => ?_) ?_ fun pid => ?_
    · refine (careful_closeAll ?_).bind fun _ closed same => ?_
      · simpa using ⟨reporter_above, watcher_above⟩
      · subst same
        exact offers.without_both
    · exact ExecPlan.careful_enter standing input_open output_open offers
    · exact ExecPlan.careful_confirm standing offers

theorem careful_awaitStage {pid : Int} :
    (awaitStage plan pid).Careful (fun _ later => later = table) table := by
  refine careful_perform_bind trivial fun reply _ => ?_
  cases reply with
  | error errno => exact rfl
  | ok report =>
    dsimp only
    split <;> exact rfl

theorem careful_startStage (stage : Stage) (standing : table.Standing)
    (input_open : table input ≠ .nothing) :
    (startStage stage input scheduling).Careful
      (OrUnchanged table fun readEnd later => table.Opens (some readEnd) later) table := by
  unfold startStage
  cases ExecPlan.ofStage stage with
  | error error => exact rfl
  | ok plan =>
    refine careful_perform_bind trivial fun reply lawful => ?_
    rcases reply with errno | ⟨readEnd, writeEnd⟩
    · exact rfl
    obtain ⟨apart, read_free, write_free⟩ := lawful.pipe
    have offers : table.Offers readEnd writeEnd := ⟨apart, read_free, write_free⟩
    have read_above := standing.above read_free
    have write_above := standing.above write_free
    have write_open : table.piped readEnd writeEnd writeEnd ≠ .nothing := by
      simp [Table.piped, Table.after]
    refine (careful_spawn (standing.mono offers.keeps) (offers.keeps.isOpen input_open)
      write_open).bind fun spawned later same => ?_
    subst same
    cases spawned with
    | error error =>
      refine (careful_closeAll (by simpa using ⟨write_above, read_above⟩)).bind
        fun _ closed same => ?_
      subst same
      exact offers.without_both
    | ok child =>
      refine (careful_closeAll (by simpa using write_above)).bind fun _ closed same => ?_
      rw [offers.without_writeEnd] at same
      subst same
      split
      · exact .one read_free
      · refine careful_awaitStage.bind fun awaited later same => ?_
        subst same
        cases awaited with
        | ok => exact .one read_free
        | error error =>
          refine (careful_closeAll (by simpa using read_above)).bind fun _ closed same => ?_
          subst same
          exact offers.without_readEnd

theorem careful_execInPlace (standing : table.Standing) (input_open : table input ≠ .nothing)
    (output_open : table output ≠ .nothing) :
    (execInPlace plan input output).Careful (fun _ _ => True) table := by
  have announces {table : Table} (failure : ExecFailure) :
      (announceNotFound failure.mortal >>= fun _ => pure failure.errno).Careful (fun _ _ => True)
        table :=
    careful_announceNotFound.bind fun _ _ _ => trivial
  refine careful_perform_bind trivial fun saved lawful => ?_
  rcases saved with errno | copy
  · refine (ExecPlan.careful_execWith input_open output_open).bind fun failure _ _ => ?_
    exact announces failure
  · obtain ⟨copy_free, above⟩ := lawful.2 copy (by simp [Call.gains])
    have copy_above : 2 < copy := above
    have keeps : table.Keeps (table.after (.answered (.duplicateFrom standardOutput 3) (.ok copy))) :=
      fun descriptor isOpen => by
        simp [Table.after, Table.ne_of_isOpen isOpen copy_free]
    refine (ExecPlan.careful_execWith (keeps.isOpen input_open) (keeps.isOpen output_open)).bind
      fun failure later others => ?_
    have copy_open : later copy ≠ .nothing := by
      rw [others copy copy_above]
      simpa [Table.after] using standing standardOutput (by decide)
    refine careful_perform_bind ⟨copy_open, by decide⟩ fun _ _ => ?_
    exact (careful_closeAll (by simpa using copy_above)).bind fun _ _ _ => announces failure

/-! ## Pipelines -/

namespace Pipeline

/-- Between two stages, a process has the read end that it carries in addition to what it had. -/
theorem careful_startEarlier (standing : base.Standing) (input_open : base input ≠ .nothing)
    {carried : Option Descriptor} (opens : base.Opens carried table) (stages : List Stage) :
    (startEarlier input flags scheduling carried stages).Careful
      (OrUnchanged base fun carried later => base.Opens carried later) table := by
  induction stages generalizing carried table with
  | nil => exact opens
  | cons stage rest ih =>
    have carried_above : ∀ readEnd ∈ carried.toList, 2 < readEnd := fun readEnd member =>
      standing.above (opens.free readEnd (by simpa using member))
    unfold startEarlier
    split
    · refine (careful_closeAll carried_above).bind fun _ closed same => ?_
      subst same
      exact opens.without_eq
    · refine (careful_startStage stage (standing.mono opens.keeps)
        (opens.getD_isOpen input_open)).bind fun started later has => ?_
      cases started with
      | ok readEnd =>
        refine (careful_closeAll carried_above).bind fun _ closed same => ?_
        subst same
        exact ih (opens.next has)
      | error error =>
        obtain rfl : later = table := has
        refine careful_announceNotFound.bind fun _ announced same => ?_
        refine (careful_closeAll carried_above).bind fun _ closed same' => ?_
        subst same same'
        exact opens.without_eq

theorem careful_becomeLast (pipeline : Pipeline) (standing : table.Standing)
    (input_open : table input ≠ .nothing) (output_open : table output ≠ .nothing) :
    (pipeline.becomeLast input output).Careful (fun _ _ => True) table := by
  unfold becomeLast
  cases ExecPlan.ofStage pipeline.last with
  | ok plan =>
    exact (careful_execInPlace standing input_open output_open).bind fun _ _ _ => trivial
  | error error => exact careful_announceNotFound.bind fun _ _ _ => trivial

theorem careful_run (pipeline : Pipeline) (standing : base.Standing)
    (input_open : base input ≠ .nothing) (output_open : base output ≠ .nothing) :
    (pipeline.run input output flags scheduling).Careful (fun _ _ => True) base := by
  refine (careful_startEarlier standing input_open (.none base) pipeline.earlier).bind
    fun started later has => ?_
  cases started with
  | error failure => trivial
  | ok carried =>
    have opens : base.Opens carried later := has
    refine (careful_becomeLast pipeline (standing.mono opens.keeps) (opens.getD_isOpen input_open)
      (opens.keeps.isOpen output_open)).bind fun error _ _ => ?_
    refine (careful_closeAll fun readEnd member => ?_).bind fun _ _ _ => trivial
    exact standing.above (opens.free readEnd (by simpa using member))

theorem careful_supervise {post : α → Table → Prop} (pipeline : Pipeline)
    (standing : base.Standing) (input_open : base input ≠ .nothing)
    (output_open : base output ≠ .nothing) {reporter : Option Descriptor}
    (above : ∀ descriptor ∈ reporter, 2 < descriptor) :
    (pipeline.supervise input output flags scheduling reporter : Action α).Careful post base := by
  refine (careful_run pipeline standing input_open output_open).bind fun failure _ _ => ?_
  cases reporter with
  | none => exact careful_exit _
  | some reporter =>
    exact (Channel.careful_report (above reporter rfl) _).bind fun _ _ _ => careful_exit _

theorem careful_awaitJob {channel : Channel} {pid : Int} (standing : table.Standing)
    (offers : table.Offers channel.watcher channel.reporter) :
    (awaitJob channel pid).Careful (fun _ later => later = table)
      (table.piped channel.watcher channel.reporter) := by
  have watcher_above := standing.above offers.read_free
  have reporter_above := standing.above offers.write_free
  refine (careful_closeAll (by simpa using reporter_above)).bind fun _ closed same => ?_
  refine (Channel.careful_await watcher_above).bind fun failure awaited same' => ?_
  subst same same'
  rw [offers.without_writeEnd, offers.without_readEnd]
  refine careful_perform_bind trivial fun reply _ => ?_
  cases reply with
  | error errno => exact rfl
  | ok report =>
    dsimp only
    split <;> exact rfl

theorem careful_runAsJob (pipeline : Pipeline) (background : Bool) (standing : table.Standing)
    (input_open : table input ≠ .nothing) (output_open : table output ≠ .nothing) :
    (pipeline.runAsJob input output background flags scheduling).Careful
      (fun _ later => later = table) table := by
  cases background with
  | true =>
    refine careful_fork_bind (fun _ => rfl) ?_ fun _ => rfl
    exact careful_supervise pipeline standing input_open output_open nofun
  | false =>
    refine Channel.careful_create.bind fun created made isNew => ?_
    cases created with
    | error errno => exact isNew
    | ok channel =>
      obtain ⟨offers, rfl⟩ := isNew
      have watcher_above := standing.above offers.read_free
      have reporter_above := standing.above offers.write_free
      have keeps := offers.keeps_without
      refine careful_fork_bind (fun errno => ?_) ?_ fun pid => ?_
      · refine (careful_closeAll (by simpa using ⟨watcher_above, reporter_above⟩)).bind
          fun _ closed same => ?_
        subst same
        exact (Table.without_swap ..).trans offers.without_both
      · refine (careful_closeAll (by simpa using watcher_above)).bind fun _ closed same => ?_
        subst same
        exact careful_supervise pipeline (standing.mono keeps) (keeps.isOpen input_open)
          (keeps.isOpen output_open) (by simpa using reporter_above)
      · exact careful_awaitJob standing offers

end Pipeline

end PipelineShell
