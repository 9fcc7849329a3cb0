import Mathlib.Algebra.Ring.Nat
import Mathlib.Data.List.Nodup
import PipelineShell.Proofs.Job.Reap
import PipelineShell.Proofs.Line.ShortCircuit

namespace PipelineShell

open PipelineShell.Action

namespace Job

theorem ids_numbered (first : Nat) (entries : List (Int × Word)) :
    (numbered first entries).map Job.id = List.range' first entries.length := by
  rw [numbered, List.map_map]
  exact List.zipIdx_map_snd ..

theorem nodup_numbered (first : Nat) (entries : List (Int × Word)) :
    (numbered first entries).Nodup := by
  apply List.Nodup.of_map Job.id
  rw [ids_numbered]
  exact List.nodup_range'

end Job

namespace JobTable

theorem runs_add {table table' : JobTable} {pid : Int} {command : Word} {events : List Event}
    {id : Nat} (run : Runs (table.add pid command) events (.value (id, table'))) :
    events = [] ∧ id = table.nextId ∧ table.Gains [(pid, command)] table' := by
  rcases table.add_cases pid command with ⟨_, added, gains⟩ | ⟨-, gives_up⟩
  · rw [added] at run
    obtain ⟨rfl, ⟨⟩⟩ := runs_done_iff.1 run
    exact ⟨rfl, rfl, gains⟩
  · rw [gives_up] at run
    cases (runs_exit_iff.1 run).2 <;> contradiction

theorem exists_add {table : JobTable} (room : table.nextId + 1 < idLimit) (pid : Int)
    (command : Word) : ∃ table', Runs (table.add pid command) [] (.value (table.nextId, table')) := by
  rcases table.add_cases pid command with ⟨table', added, -⟩ | ⟨full, -⟩
  · exact ⟨table', added ▸ .done _⟩
  · omega

/-- What may have happened to a table since it was new: the processes and commands that were added,
and the results of the reaps, both in order. -/
inductive History : List (Int × Word) → List (List (Job × WaitStatus)) → JobTable → Prop
  | new : History [] [] {}
  | add {entries : List (Int × Word)} {reaped : List (List (Job × WaitStatus))}
    {table table' : JobTable} {pid : Int} {command : Word} {events : List Event} {id : Nat}
    (before : History entries reaped table)
    (run : Runs (table.add pid command) events (.value (id, table'))) :
    History (entries ++ [(pid, command)]) reaped table'
  | reap {entries : List (Int × Word)} {reaped : List (List (Job × WaitStatus))}
    {table table' : JobTable} {console : Console} {events : List Event}
    {left : List (Job × WaitStatus)} (before : History entries reaped table)
    (run : Runs (table.reap console) events (.value (left, table'))) :
    History entries (reaped ++ [left]) table'

namespace History

variable {entries : List (Int × Word)} {reaped : List (List (Job × WaitStatus))} {table : JobTable}

theorem nextId_eq (history : History entries reaped table) :
    table.nextId = entries.length + 1 := by
  induction history with
  | new => rfl
  | add before run ih =>
    rw [(runs_add run).2.2.nextId_eq, ih, List.length_append, Nat.add_right_comm]
  | reap before run ih =>
    obtain ⟨polled, -, -, -, -, nextId⟩ := runs_reap run
    exact nextId.trans ih

theorem ascending_reaped (history : History entries reaped table) :
    ∀ left ∈ reaped, Job.Ascending (left.map Prod.fst) := by
  induction history with
  | new => nofun
  | add before run ih => exact ih
  | @reap _ _ table _ _ _ _ before run ih =>
    obtain ⟨polled, jobs, -, rfl, -, -⟩ := runs_reap run
    intro left member
    rcases List.mem_append.1 member with earlier | last
    · exact ih left earlier
    · obtain rfl := List.mem_singleton.1 last
      exact table.ascending.sublist (jobs ▸ sublist_leaving polled)

theorem perm (history : History entries reaped table) :
    (table.jobs ++ (reaped.map (List.map Prod.fst)).flatten).Perm (Job.numbered 1 entries) := by
  induction history with
  | new => exact .refl _
  | @add entries reaped table table' pid command events id before run ih =>
    rw [Job.numbered_append, Nat.add_comm 1, ← before.nextId_eq, (runs_add run).2.2.jobs_eq,
      List.append_assoc]
    have to_the_end := @List.perm_append_comm _ [(⟨table.nextId, pid, command⟩ : Job)]
      (reaped.map (List.map Prod.fst)).flatten
    refine (to_the_end.append_left table.jobs).trans ?_
    rw [← List.append_assoc]
    exact ih.append_right _
  | @reap entries reaped table table' console events left before run ih =>
    obtain ⟨polled, jobs, -, rfl, stay, -⟩ := runs_reap run
    have split := jobs ▸ perm_staying_leaving polled
    refine List.Perm.trans ?_ ih
    rw [stay, List.map_append, List.flatten_append, List.map_singleton, List.flatten_singleton]
    have to_the_front := @List.perm_append_comm _ (reaped.map (List.map Prod.fst)).flatten
      ((leaving polled).map Prod.fst)
    refine (to_the_front.append_left (staying polled)).trans ?_
    rw [← List.append_assoc]
    exact split.append_right _

theorem count_eq (history : History entries reaped table) (job : Job) :
    table.jobs.count job + (reaped.map fun left => (left.map Prod.fst).count job).sum =
      if job ∈ Job.numbered 1 entries then 1 else 0 := by
  have everywhere := history.perm.count_eq job
  rw [List.count_append, List.count_flatten, List.map_map] at everywhere
  refine everywhere.trans ?_
  split
  · exact List.count_eq_one_of_mem (Job.nodup_numbered 1 entries) ‹_›
  · exact List.count_eq_zero_of_not_mem ‹_›

end History

structure Accounts (entries : List (Int × Word)) (reaped : List (List (Job × WaitStatus)))
    (table : JobTable) : Prop where
  nextId_eq : table.nextId = entries.length + 1
  fits : table.nextId < 2 ^ 32
  once : ∀ job, table.jobs.count job +
      (reaped.map fun left => (left.map Prod.fst).count job).sum =
    if job ∈ Job.numbered 1 entries then 1 else 0
  keyed : ∀ id job, table.job? id = some job ↔ job ∈ table.jobs ∧ job.id = id
  below : ∀ job ∈ table.jobs, job.id < table.nextId
  ascending : Job.Ascending table.jobs
  ascending_reaped : ∀ left ∈ reaped, Job.Ascending (left.map Prod.fst)

structure Parts (table : JobTable) (polled : List Polled) (left : List (Job × WaitStatus))
    (table' : JobTable) : Prop where
  asked : polled.map Prod.fst = table.jobs
  leaves_iff : ∀ job status, (job, status) ∈ left ↔ ∃ answer, (job, answer) ∈ polled ∧
    ((understood answer = .ok status ∧ status ≠ .stillAlive) ∨
      (understood answer = .error .noChild ∧ status = .stillAlive))
  stays_iff : ∀ job, job ∈ table'.jobs ↔ ∃ answer, (job, answer) ∈ polled ∧
    (understood answer = .ok .stillAlive ∨
      ∃ errno, understood answer = .error errno ∧ errno ≠ .noChild)
  nextId_eq : table'.nextId = table.nextId

/-- No job is lost, doubled or renumbered, whatever has happened to a table since it was new and
whatever the system answers to the next reap. A job can be added as long as there are fewer than
`2 ^ 32 - 1` in all. -/
theorem nothing_lost (entries : List (Int × Word)) (reaped : List (List (Job × WaitStatus)))
    (table : JobTable) (history : History entries reaped table) :
    Accounts entries reaped table ∧
    (∀ pid command,
      (entries.length + 1 < 2 ^ 32 - 1 →
        ∃ table', Runs (table.add pid command) [] (.value (entries.length + 1, table'))) ∧
      ∀ events id table', Runs (table.add pid command) events (.value (id, table')) →
        id = entries.length + 1) ∧
    ∀ console : Console,
      (∀ polled : List Polled, polled.map Prod.fst = table.jobs →
        ∃ events left table', polls events = polled.map (fun each => (each.1.pid, each.2)) ∧
          Runs (table.reap console) events (.value (left, table'))) ∧
      ∀ events left table', Runs (table.reap console) events (.value (left, table')) →
        ∃ polled, polls events = polled.map (fun each => (each.1.pid, each.2)) ∧
          Parts table polled left table' := by
  refine ⟨⟨history.nextId_eq, table.inRange, history.count_eq, fun _ _ => job?_eq_some_iff,
    table.below, table.ascending, history.ascending_reaped⟩,
    fun pid command => ⟨fun few => ?_, fun events id table' run => ?_⟩,
    fun console => ⟨fun polled asked => ?_, fun events left table' run => ?_⟩⟩
  · rw [← history.nextId_eq]
    refine exists_add ?_ pid command
    rw [history.nextId_eq, idLimit]
    omega
  · rw [(runs_add run).2.1, history.nextId_eq]
  · obtain ⟨events, table', answers, run⟩ := exists_reap console asked
    exact ⟨events, _, table', answers, run⟩
  · obtain ⟨polled, asked, answers, rfl, stay, nextId⟩ := runs_reap run
    exact ⟨polled, answers, asked, fun _ _ => mem_leaving_iff, fun _ => stay ▸ mem_staying_iff,
      nextId⟩

theorem nothing_lost_after_collecting_first :
    Accounts [(100, ['a']), (101, ['b']), (102, ['c'])] [[(⟨1, 100, ['a']⟩, .exited 0)]]
      { jobs := [⟨2, 101, ['b']⟩, ⟨3, 102, ['c']⟩], nextId := 4 } := by
  have first : Runs (add {} 100 ['a']) []
      (.value (1, { jobs := [⟨1, 100, ['a']⟩], nextId := 2 })) := .done _
  have second : Runs (add { jobs := [⟨1, 100, ['a']⟩], nextId := 2 } 101 ['b']) []
      (.value (2, { jobs := [⟨1, 100, ['a']⟩, ⟨2, 101, ['b']⟩], nextId := 3 })) := .done _
  have reap : Runs (reap { jobs := [⟨1, 100, ['a']⟩, ⟨2, 101, ['b']⟩], nextId := 3 } {}) [
      .answered (.wait 100 .poll) (.ok (.exited 0)), .answered (.wait 101 .poll) (.ok .running)]
      (.value ([(⟨1, 100, ['a']⟩, .exited 0)], { jobs := [⟨2, 101, ['b']⟩], nextId := 3 })) :=
    .call _ rfl <| .call _ rfl <| .done _
  have third : Runs (add { jobs := [⟨2, 101, ['b']⟩], nextId := 3 } 102 ['c']) []
      (.value (3, { jobs := [⟨2, 101, ['b']⟩, ⟨3, 102, ['c']⟩], nextId := 4 })) := .done _
  exact (nothing_lost _ _ _ ((((History.new.add first).add second).reap reap).add third)).1

end JobTable

end PipelineShell
