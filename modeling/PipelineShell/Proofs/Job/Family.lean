import Mathlib.Logic.Function.Basic
import PipelineShell.Proofs.Job.History

namespace PipelineShell

open PipelineShell.Action

abbrev Family := Int → Option ChildReport

namespace Family

variable {family family' : Family}

def answer (family : Family) (pid : Int) : Except Errno ChildReport :=
  match family pid with
  | some report => .ok report
  | none => .error .noChild

def collect (family : Family) (pid : Int) : Family :=
  if family pid = some .running then family else Function.update family pid none

/-- The polls are answered truthfully, and no child ends in between. -/
inductive Answers : Family → List (Int × Except Errno ChildReport) → Family → Prop
  | nil (family : Family) : Answers family [] family
  | cons {family family' : Family} {rest : List (Int × Except Errno ChildReport)} (pid : Int)
    (later : Answers (family.collect pid) rest family') :
    Answers family ((pid, family.answer pid) :: rest) family'

theorem collect_of_ne {pid other : Int} (apart : other ≠ pid) :
    family.collect pid other = family other := by
  unfold collect
  split
  · rfl
  · exact Function.update_of_ne apart ..

theorem collect_self (family : Family) (pid : Int) :
    family.collect pid pid = if family pid = some .running then some .running else none := by
  by_cases running : family pid = some .running
  · rw [collect, if_pos running, if_pos running, running]
  · rw [collect, if_neg running, if_neg running, Function.update_self]

theorem answer_collect {pid other : Int} (apart : other ≠ pid) :
    (family.collect pid).answer other = family.answer other := by
  rw [answer, answer, collect_of_ne apart]

theorem foldl_collect_apply {pids : List Int} (distinct : pids.Nodup) (pid : Int) :
    pids.foldl collect family pid =
      if pid ∈ pids ∧ family pid ≠ some .running then none else family pid := by
  induction pids generalizing family with
  | nil => simp
  | cons first rest ih =>
    obtain ⟨not_later, distinct⟩ := List.nodup_cons.1 distinct
    rw [List.foldl_cons, ih distinct]
    by_cases same : pid = first
    · subst same
      rw [collect_self]
      by_cases running : family pid = some .running <;> simp [not_later, running]
    · simp [collect_of_ne same, same]

theorem Answers.eq_map {polled : List (Int × Except Errno ChildReport)}
    (answers : Answers family polled family') (distinct : (polled.map Prod.fst).Nodup) :
    polled = (polled.map Prod.fst).map (fun pid => (pid, family.answer pid)) ∧
      family' = (polled.map Prod.fst).foldl collect family := by
  induction answers with
  | nil family => exact ⟨rfl, rfl⟩
  | @cons family family' rest pid later ih =>
    obtain ⟨not_later, distinct⟩ := List.nodup_cons.1 distinct
    obtain ⟨others, last⟩ := ih distinct
    refine ⟨?_, last⟩
    rw [List.map_cons, List.map_cons]
    congr 1
    refine others.trans (List.map_congr_left fun other member => ?_)
    rw [answer_collect (ne_of_mem_of_not_mem member not_later)]

theorem exists_answers (family : Family) {pids : List Int} (distinct : pids.Nodup) :
    Answers family (pids.map fun pid => (pid, family.answer pid)) (pids.foldl collect family) := by
  induction pids generalizing family with
  | nil => exact .nil family
  | cons first rest ih =>
    obtain ⟨not_later, distinct⟩ := List.nodup_cons.1 distinct
    have same : rest.map (fun pid => (pid, family.answer pid)) =
        rest.map (fun pid => (pid, (family.collect first).answer pid)) :=
      List.map_congr_left fun other member => by
        rw [answer_collect (ne_of_mem_of_not_mem member not_later)]
    rw [List.map_cons, same]
    exact .cons first (ih _ distinct)

inductive EndsWith (family : Family) (pid : Int) : WaitStatus → Prop
  | exited {code : Nat} (h : family pid = some (.exited code)) : EndsWith family pid (.exited code)
  | signaled {number : Nat} (h : family pid = some (.killed number)) (positive : 1 ≤ number)
    (named : number ≤ 31) : EndsWith family pid (.signaled ⟨number⟩)

/-- The child was killed by a signal that has no name. -/
def KilledNameless (family : Family) (pid : Int) : Prop :=
  ∃ number, family pid = some (.killed number) ∧ ¬ (1 ≤ number ∧ number ≤ 31)

end Family

namespace JobTable

variable {table table' : JobTable} {console : Console} {events : List Event}
  {left : List (Job × WaitStatus)} {family family' : Family}

theorem leaves_of_answer {pid : Int} {status : WaitStatus} :
    parting? (understood (family.answer pid)) = some status ↔
      family.EndsWith pid status ∨ family pid = none ∧ status = .stillAlive := by
  constructor
  · intro parts
    unfold Family.answer at parts
    cases state : family pid with
    | none =>
      rw [state] at parts
      exact .inr ⟨rfl, (Option.some.inj parts).symm⟩
    | some report =>
      rw [state] at parts
      left
      cases report with
      | running => cases parts
      | exited code =>
        cases parts
        exact .exited state
      | killed number =>
        rw [understood, WaitStatus.ofReport_killed] at parts
        split at parts
        · rename_i named
          cases parts
          exact .signaled state named.1 named.2
        · cases parts
  · rintro (ends | ⟨gone, rfl⟩)
    · cases ends with
      | exited state => simp [Family.answer, state, understood, WaitStatus.ofReport, parting?]
      | signaled state positive named =>
        simp [Family.answer, state, understood, WaitStatus.ofReport_killed, positive, named,
          parting?]
    · simp [Family.answer, gone, understood, parting?]

theorem stays_of_answer {pid : Int} :
    parting? (understood (family.answer pid)) = none ↔
      family pid = some .running ∨ family.KilledNameless pid := by
  unfold Family.answer Family.KilledNameless
  cases state : family pid with
  | none => simp [understood, parting?]
  | some report =>
    cases report with
    | running => simp [understood, WaitStatus.ofReport, parting?]
    | exited code => simp [understood, WaitStatus.ofReport, parting?]
    | killed number =>
      by_cases named : 1 ≤ number ∧ number ≤ 31
      · simp [understood, WaitStatus.ofReport_killed, named, parting?]
      · have invalid : Errno.invalid ≠ .noChild := by decide
        have undecoded : understood (.ok (.killed number)) = .error .invalid := by
          rw [understood, WaitStatus.ofReport_killed, if_neg named]
        show parting? (understood (.ok (.killed number))) = none ↔ _
        rw [undecoded, parting?, if_neg invalid]
        exact iff_of_true rfl (.inr ⟨number, rfl, named⟩)

structure Collects (table : JobTable) (family : Family) (left : List (Job × WaitStatus))
    (table' : JobTable) (family' : Family) : Prop where
  leaves_iff : ∀ job status, (job, status) ∈ left ↔ job ∈ table.jobs ∧
    (family.EndsWith job.pid status ∨ family job.pid = none ∧ status = .stillAlive)
  stays_iff : ∀ job, job ∈ table'.jobs ↔ job ∈ table.jobs ∧
    (family job.pid = some .running ∨ family.KilledNameless job.pid)
  ascending_left : Job.Ascending (left.map Prod.fst)
  sublist : table'.jobs.Sublist table.jobs
  family_eq : ∀ pid, family' pid =
    if pid ∈ table.jobs.map Job.pid ∧ family pid ≠ some .running then none else family pid

theorem collects_of_runs (distinct : (table.jobs.map Job.pid).Nodup)
    (run : Runs (table.reap console) events (.value (left, table')))
    (truthful : family.Answers (polls events) family') :
    Collects table family left table' family' := by
  obtain ⟨polled, jobs, asked, rfl, stay, -⟩ := runs_reap run
  have pids : (polls events).map Prod.fst = table.jobs.map Job.pid := by
    rw [asked, ← jobs, List.map_map, List.map_map]
    rfl
  obtain ⟨answers, last⟩ := truthful.eq_map (pids ▸ distinct)
  rw [pids] at answers last
  -- Every job was polled once, and was answered as its child stood at the start.
  have told : ∀ each ∈ polled, each.2 = family.answer each.1.pid := by
    intro each member
    have asked_for : (each.1.pid, each.2) ∈ polls events := by
      rw [asked]
      exact List.mem_map_of_mem member
    rw [answers] at asked_for
    obtain ⟨pid, -, same⟩ := List.mem_map.1 asked_for
    obtain ⟨rfl, answered⟩ := Prod.mk.inj same
    exact answered.symm
  have polled_iff : ∀ job answer,
      (job, answer) ∈ polled ↔ job ∈ table.jobs ∧ answer = family.answer job.pid := by
    intro job answer
    rw [← jobs]
    constructor
    · intro member
      exact ⟨List.mem_map_of_mem member, told _ member⟩
    · rintro ⟨member, rfl⟩
      obtain ⟨each, asked_for, rfl⟩ := List.mem_map.1 member
      exact told each asked_for ▸ asked_for
  refine ⟨fun job status => ?_, fun job => ?_, ?_, ?_, fun pid => ?_⟩
  · rw [mem_leaving_iff]
    simp only [polled_iff, ← parting?_eq_some_iff, and_assoc, exists_and_left, exists_eq_left,
      leaves_of_answer]
  · rw [stay, mem_staying_iff]
    simp only [polled_iff, ← parting?_eq_none_iff, and_assoc, exists_and_left, exists_eq_left,
      stays_of_answer]
  · exact table.ascending.sublist (jobs ▸ sublist_leaving polled)
  · exact stay ▸ jobs ▸ sublist_staying polled
  · rw [last, Family.foldl_collect_apply distinct]

theorem exists_truthful_reap (table : JobTable) (console : Console) (family : Family)
    (distinct : (table.jobs.map Job.pid).Nodup) :
    ∃ events left table' family', Runs (table.reap console) events (.value (left, table')) ∧
      family.Answers (polls events) family' := by
  have asked : (table.jobs.map fun job => (job, family.answer job.pid)).map Prod.fst =
      table.jobs := by
    rw [List.map_map]
    exact List.map_id _
  obtain ⟨events, table', answers, run⟩ := exists_reap console asked
  refine ⟨events, _, table', (table.jobs.map Job.pid).foldl Family.collect family, run, ?_⟩
  have same : polls events =
      (table.jobs.map Job.pid).map fun pid => (pid, family.answer pid) := by
    rw [answers, List.map_map, List.map_map]
    rfl
  rw [same]
  exact family.exists_answers distinct

/-- A reap of children returns all jobs whose child exited or was killed by a signal with a name,
with the way it ended. It keeps the jobs whose child runs, and also those whose child was killed by
a signal without a name; although such a child has been collected, only the next reap returns its
job, as one whose end is not known. -/
theorem reap_collects (table : JobTable) (console : Console) (family : Family)
    (distinct : (table.jobs.map Job.pid).Nodup)
    (real : ∀ job ∈ table.jobs, family job.pid ≠ none) :
    (∃ events left table' family', Runs (table.reap console) events (.value (left, table')) ∧
      family.Answers (polls events) family') ∧
    ∀ events left table' family', Runs (table.reap console) events (.value (left, table')) →
      family.Answers (polls events) family' →
      (∀ job status, (job, status) ∈ left ↔
        job ∈ table.jobs ∧ family.EndsWith job.pid status) ∧
      (∀ job, job ∈ table'.jobs ↔ job ∈ table.jobs ∧
        (family job.pid = some .running ∨ family.KilledNameless job.pid)) ∧
      Job.Ascending (left.map Prod.fst) ∧ Job.Ascending table'.jobs ∧
      (∀ job ∈ table.jobs, family' job.pid =
        if family job.pid = some .running then some .running else none) ∧
      ∀ events' left' table'' family'',
        Runs (table'.reap console) events' (.value (left', table'')) →
        family'.Answers (polls events') family'' →
        (∀ job status, (job, status) ∈ left' ↔
          job ∈ table.jobs ∧ family.KilledNameless job.pid ∧ status = .stillAlive) ∧
        ∀ job, job ∈ table''.jobs ↔ job ∈ table.jobs ∧ family job.pid = some .running := by
  refine ⟨exists_truthful_reap table console family distinct, ?_⟩
  intro events left table' family' run truthful
  have first := collects_of_runs distinct run truthful
  have family'_eq : ∀ job ∈ table.jobs, family' job.pid =
      if family job.pid = some .running then some .running else none := by
    intro job member
    rw [first.family_eq]
    by_cases running : family job.pid = some .running
    · simp [running]
    · simp [running, List.mem_map_of_mem (f := Job.pid) member]
  refine ⟨fun job status => ?_, first.stays_iff, first.ascending_left, table'.ascending,
    family'_eq, ?_⟩
  · rw [first.leaves_iff]
    refine and_congr_right fun member => or_iff_left ?_
    exact fun gone => real job member gone.1
  intro events' left' table'' family'' run' truthful'
  have second := collects_of_runs (distinct.sublist (first.sublist.map Job.pid)) run'
    truthful'
  -- Of the jobs that have stayed, the next poll finds a child that runs or none.
  have no_end : ∀ job ∈ table.jobs, ∀ status, ¬ family'.EndsWith job.pid status := by
    intro job member status ends
    have state := family'_eq job member
    cases ends with
    | exited h => split at state <;> simp_all
    | signaled h => split at state <;> simp_all
  have nameless_apart : ∀ {pid}, family.KilledNameless pid → family pid ≠ some .running := by
    rintro pid ⟨number, killed, -⟩ running
    rw [killed] at running
    cases running
  refine ⟨fun job status => ?_, fun job => ?_⟩
  · rw [second.leaves_iff, first.stays_iff, and_assoc]
    refine and_congr_right fun member => ?_
    have state := family'_eq job member
    by_cases running : family job.pid = some .running
    · have not_nameless : ¬ family.KilledNameless job.pid := fun h => nameless_apart h running
      simp [no_end job member, state, running, not_nameless]
    · simp [no_end job member, state, running]
  · rw [second.stays_iff, first.stays_iff, and_assoc]
    refine and_congr_right fun member => ?_
    have state := family'_eq job member
    by_cases running : family job.pid = some .running
    · simp [state, running]
    · simp [state, running, Family.KilledNameless]

def mixedFamily : Family := fun pid =>
  if pid = 100 then some (.killed 34) else if pid = 101 then some .running else none

def mixedTable : JobTable := { jobs := [⟨1, 100, ['a']⟩, ⟨2, 101, ['b']⟩], nextId := 3 }

theorem real_mixedTable : ∀ job ∈ mixedTable.jobs, mixedFamily job.pid ≠ none := by decide

theorem reap_collects_mixed :
    (mixedTable.jobs.map Job.pid).Nodup ∧
      (∀ job ∈ mixedTable.jobs, mixedFamily job.pid ≠ none) ∧
      ∃ events left table' family',
        Runs (mixedTable.reap {}) events (.value (left, table')) ∧
          mixedFamily.Answers (polls events) family' :=
  ⟨by decide, real_mixedTable,
    (reap_collects mixedTable {} mixedFamily (by decide) real_mixedTable).1⟩

/-- A reap does not return every job whose child has ended. -/
theorem reap_keeps_killed :
    ¬ ∀ (table : JobTable) (family : Family), (table.jobs.map Job.pid).Nodup →
      (∀ job ∈ table.jobs, family job.pid ≠ none) →
      ∀ events left table' family', Runs (table.reap {}) events (.value (left, table')) →
        family.Answers (polls events) family' →
        ∀ job ∈ table.jobs, family job.pid ≠ some .running → ∃ status, (job, status) ∈ left := by
  intro claim
  obtain ⟨events, left, table', family', run, truthful⟩ :=
    exists_truthful_reap mixedTable {} mixedFamily (by decide)
  obtain ⟨status, member⟩ := claim mixedTable mixedFamily (by decide) real_mixedTable events left
    table' family' run truthful ⟨1, 100, ['a']⟩ (by decide) (by decide)
  have leaves := ((collects_of_runs (by decide) run truthful).leaves_iff _ _).1 member
  rcases leaves.2 with ends | ⟨gone, -⟩
  · cases ends with
    | exited state => cases state
    | signaled state positive named =>
      cases state
      exact absurd named (by decide)
  · exact absurd gone (by decide)

end JobTable

end PipelineShell
