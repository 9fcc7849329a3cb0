import Mathlib.Data.List.Nodup
import PipelineShell.Proofs.Messages

namespace PipelineShell

open PipelineShell.Action

def Event.poll? : Event → Option (Int × Except Errno ChildReport)
  | .answered (.wait pid .poll) reply => some (pid, reply)
  | _ => none

def polls (events : List Event) : List (Int × Except Errno ChildReport) :=
  events.filterMap Event.poll?

@[simp] theorem polls_nil : polls [] = [] := rfl

@[simp] theorem polls_append (first second : List Event) :
    polls (first ++ second) = polls first ++ polls second :=
  List.filterMap_append

@[simp] theorem polls_wait (pid : Int) (reply : Except Errno ChildReport) (rest : List Event) :
    polls (.answered (.wait pid .poll) reply :: rest) = (pid, reply) :: polls rest := rfl

theorem Only.polls_eq {allowed : Call → Prop} {events : List Event} (only : Only allowed events)
    (silent : ∀ pid, ¬ allowed (.wait pid .poll)) : polls events = [] := by
  apply List.filterMap_eq_nil_iff.2
  intro event member
  obtain ⟨request, reply, rfl, ok⟩ := only event member
  cases request with
  | wait pid mode =>
    cases mode with
    | poll => exact absurd ok (silent pid)
    | block | observe => rfl
  | _ => rfl

namespace JobTable

/-- An answer of the system as it is understood: an end by a signal without a name is an error. -/
def understood : Except Errno ChildReport → Except Errno WaitStatus
  | .ok report => WaitStatus.ofReport report
  | .error errno => .error errno

def parting? : Except Errno WaitStatus → Option WaitStatus
  | .ok status => if status = .stillAlive then none else some status
  | .error errno => if errno = .noChild then some .stillAlive else none

abbrev Polled := Job × Except Errno ChildReport

def Polled.parting? (polled : Polled) : Option WaitStatus :=
  JobTable.parting? (understood polled.2)

def leaving (polled : List Polled) : List (Job × WaitStatus) :=
  polled.filterMap fun each => each.parting?.map (each.1, ·)

def staying (polled : List Polled) : List Job :=
  (polled.filter fun each => each.parting?.isNone).map Prod.fst

section

variable {first : Polled} {rest : List Polled}

@[simp] theorem leaving_nil : leaving [] = [] := rfl

@[simp] theorem staying_nil : staying [] = [] := rfl

theorem leaving_cons_of_some {status : WaitStatus} (parts : first.parting? = some status) :
    leaving (first :: rest) = (first.1, status) :: leaving rest := by
  simp [leaving, parts]

theorem leaving_cons_of_none (parts : first.parting? = none) :
    leaving (first :: rest) = leaving rest := by
  simp [leaving, parts]

theorem staying_cons_of_some {status : WaitStatus} (parts : first.parting? = some status) :
    staying (first :: rest) = staying rest := by
  simp [staying, parts]

theorem staying_cons_of_none (parts : first.parting? = none) :
    staying (first :: rest) = first.1 :: staying rest := by
  simp [staying, parts]

end

theorem perm_staying_leaving (polled : List Polled) :
    (staying polled ++ (leaving polled).map Prod.fst).Perm (polled.map Prod.fst) := by
  induction polled with
  | nil => exact .refl _
  | cons first rest ih =>
    rw [List.map_cons]
    cases parts : first.parting? with
    | none =>
      rw [leaving_cons_of_none parts, staying_cons_of_none parts, List.cons_append]
      exact ih.cons first.1
    | some status =>
      rw [leaving_cons_of_some parts, staying_cons_of_some parts, List.map_cons]
      exact List.perm_middle.trans (ih.cons first.1)

theorem parting?_eq_some_iff {answer : Except Errno WaitStatus} {status : WaitStatus} :
    parting? answer = some status ↔
      (answer = .ok status ∧ status ≠ .stillAlive) ∨
        (answer = .error .noChild ∧ status = .stillAlive) := by
  rcases answer with errno | known
  · by_cases gone : errno = .noChild <;> simp [parting?, gone, eq_comm]
  · by_cases alive : known = .stillAlive
    · simp only [parting?, alive, if_true]
      constructor
      · nofun
      · rintro (⟨⟨⟩, left⟩ | ⟨⟨⟩, -⟩)
        exact absurd rfl left
    · simp only [parting?, alive, if_false, Option.some.injEq, Except.ok.injEq]
      constructor
      · rintro rfl
        exact .inl ⟨rfl, alive⟩
      · rintro (⟨same, -⟩ | ⟨⟨⟩, -⟩)
        exact same

theorem parting?_eq_none_iff {answer : Except Errno WaitStatus} :
    parting? answer = none ↔
      answer = .ok .stillAlive ∨ ∃ errno, answer = .error errno ∧ errno ≠ .noChild := by
  rcases answer with errno | status
  · by_cases gone : errno = .noChild <;> simp [parting?, gone]
  · by_cases alive : status = .stillAlive <;> simp [parting?, alive]

theorem mem_leaving_iff {polled : List Polled} {job : Job} {status : WaitStatus} :
    (job, status) ∈ leaving polled ↔ ∃ answer, (job, answer) ∈ polled ∧
      ((understood answer = .ok status ∧ status ≠ .stillAlive) ∨
        (understood answer = .error .noChild ∧ status = .stillAlive)) := by
  simp only [leaving, List.mem_filterMap, Option.map_eq_some_iff, Prod.mk.injEq,
    ← parting?_eq_some_iff]
  constructor
  · rintro ⟨⟨other, answer⟩, member, found, parts, rfl, rfl⟩
    exact ⟨answer, member, parts⟩
  · rintro ⟨answer, member, parts⟩
    exact ⟨(job, answer), member, status, parts, rfl, rfl⟩

theorem mem_staying_iff {polled : List Polled} {job : Job} :
    job ∈ staying polled ↔ ∃ answer, (job, answer) ∈ polled ∧
      (understood answer = .ok .stillAlive ∨
        ∃ errno, understood answer = .error errno ∧ errno ≠ .noChild) := by
  simp only [staying, List.mem_map, List.mem_filter, Option.isNone_iff_eq_none,
    ← parting?_eq_none_iff]
  constructor
  · rintro ⟨⟨other, answer⟩, ⟨member, stays⟩, rfl⟩
    exact ⟨answer, member, stays⟩
  · rintro ⟨answer, member, stays⟩
    exact ⟨(job, answer), ⟨member, stays⟩, rfl⟩

theorem sublist_leaving (polled : List Polled) :
    ((leaving polled).map Prod.fst).Sublist (polled.map Prod.fst) := by
  induction polled with
  | nil => exact .slnil
  | cons first rest ih =>
    cases parts : first.parting? with
    | none =>
      rw [leaving_cons_of_none parts]
      exact ih.cons first.1
    | some status =>
      rw [leaving_cons_of_some parts]
      exact ih.cons_cons first.1

theorem sublist_staying (polled : List Polled) :
    (staying polled).Sublist (polled.map Prod.fst) :=
  List.filter_sublist.map Prod.fst

/-! ## One poll -/

@[simp] theorem steady_poll (job : Job) : (poll job).Steady := by
  refine steady_perform_bind rfl fun reply => ?_
  cases reply <;> trivial

theorem runs_poll_iff {job : Job} {events : List Event} {status : Except Errno WaitStatus} :
    Runs (poll job) events (.value status) ↔
      ∃ answer, events = [.answered (.wait job.pid .poll) answer] ∧
        status = understood answer := by
  rw [poll, runs_perform_bind_iff rfl]
  constructor
  · rintro (⟨-, ⟨⟩⟩ | ⟨answer, rest, rfl, returns⟩)
    refine ⟨answer, ?_⟩
    cases answer <;>
    · obtain ⟨rfl, ⟨⟩⟩ := runs_done_iff.1 returns
      exact ⟨rfl, rfl⟩
  · rintro ⟨answer, rfl, rfl⟩
    refine .inr ⟨answer, [], rfl, ?_⟩
    cases answer <;> exact .done _

def complaint (console : Console) (job : Job) (status : Except Errno WaitStatus) : Action Unit :=
  match verdict status with
  | .failed errno => console.error ("job " ++ toString job.id ++ ": " ++ errno.text)
  | .left _ | .stays => return

@[simp] theorem contained_complaint (console : Console) (job : Job)
    (status : Except Errno WaitStatus) : (complaint console job status).Contained := by
  unfold complaint
  split
  · exact Console.contained_error ..
  · trivial
  · trivial

theorem lasting_complaint {room : Nat} (console : Console) (job : Job)
    (status : Except Errno WaitStatus) : (complaint console job status).Lasting room := by
  unfold complaint
  split
  · exact Console.lasting_error ..
  · exact lasting_done _
  · exact lasting_done _

theorem polls_complaint {console : Console} {job : Job} {status : Except Errno WaitStatus}
    {events : List Event} {outcome : Outcome Unit}
    (run : Runs (complaint console job status) events outcome) : polls events = [] := by
  unfold complaint at run
  split at run
  · exact (run.only (Console.calls_error ..)).polls_eq (by simp)
  · rw [(runs_done_iff.1 run).1, polls_nil]
  · rw [(runs_done_iff.1 run).1, polls_nil]

theorem exists_complaint (console : Console) (job : Job) (status : Except Errno WaitStatus) :
    ∃ events, Runs (complaint console job status) events (.value ()) := by
  unfold complaint
  split
  · exact console.exists_error _
  · exact ⟨[], .done ()⟩
  · exact ⟨[], .done ()⟩

abbrev noted : List (Job × WaitStatus) → List (Nat × WaitStatus) :=
  List.map fun (job, status) => (job.id, status)

def noteDown (job : Job) (status : Except Errno WaitStatus) (others : List (Nat × WaitStatus)) :
    List (Nat × WaitStatus) :=
  match parting? status with
  | some status => (job.id, status) :: others
  | none => others

theorem noteDown_leaving (job : Job) (answer : Except Errno ChildReport) (polled : List Polled) :
    noteDown job (understood answer) (noted (leaving polled)) =
      noted (leaving ((job, answer) :: polled)) := by
  have same : parting? (understood answer) = Polled.parting? (job, answer) := rfl
  rw [noteDown, same]
  cases parts : Polled.parting? (job, answer) with
  | none => rw [leaving_cons_of_none parts]
  | some status => rw [leaving_cons_of_some parts]; rfl

theorem pollAll_cons (console : Console) (job : Job) (rest : List Job) :
    pollAll console (job :: rest) = poll job >>= fun status =>
      complaint console job status >>= fun _ =>
        pollAll console rest >>= fun others => pure (noteDown job status others) := by
  rw [pollAll]
  congr 1
  funext status
  rcases status with errno | status
  · by_cases gone : errno = .noChild
    · simp [complaint, verdict, noteDown, parting?, gone]
    · simp [complaint, verdict, noteDown, parting?, gone]
  · cases status <;> simp [complaint, verdict, noteDown, parting?]

/-! ## All polls -/

@[simp] theorem contained_pollAll (console : Console) (jobs : List Job) :
    (pollAll console jobs).Contained := by
  induction jobs with
  | nil => trivial
  | cons job rest ih =>
    rw [pollAll_cons]
    exact (steady_poll job).contained.bind fun _ => (contained_complaint ..).bind fun _ =>
      ih.bind fun _ => trivial

theorem lasting_pollAll {room : Nat} (console : Console) (jobs : List Job) :
    (pollAll console jobs).Lasting room := by
  induction jobs generalizing room with
  | nil => exact lasting_done _
  | cons job rest ih =>
    rw [pollAll_cons]
    exact (steady_poll job).lasting.bind fun _ _ _ => (lasting_complaint ..).bind fun _ _ _ =>
      ih.bind fun _ _ _ => lasting_done _

theorem runs_pollAll {console : Console} {jobs : List Job} {events : List Event}
    {gone : List (Nat × WaitStatus)} (run : Runs (pollAll console jobs) events (.value gone)) :
    ∃ polled : List Polled, polled.map Prod.fst = jobs ∧
      polls events = polled.map (fun each => (each.1.pid, each.2)) ∧
      gone = noted (leaving polled) := by
  induction jobs generalizing events gone with
  | nil =>
    obtain ⟨rfl, ⟨⟩⟩ := runs_done_iff.1 run
    exact ⟨[], rfl, rfl, rfl⟩
  | cons job rest ih =>
    rw [pollAll_cons, Runs.bind_value_iff (steady_poll job).contained] at run
    obtain ⟨polling, _, status, rfl, poll, run⟩ := run
    rw [Runs.bind_value_iff (contained_complaint ..)] at run
    obtain ⟨telling, _, _, rfl, tells, run⟩ := run
    rw [Runs.bind_value_iff (contained_pollAll ..)] at run
    obtain ⟨others, _, gone', rfl, run, returns⟩ := run
    obtain ⟨rfl, ⟨⟩⟩ := runs_done_iff.1 returns
    obtain ⟨answer, rfl, rfl⟩ := runs_poll_iff.1 poll
    obtain ⟨polled, rfl, polls_others, rfl⟩ := ih run
    refine ⟨(job, answer) :: polled, rfl, ?_, noteDown_leaving ..⟩
    simp [polls_complaint tells, polls_others]

theorem exists_pollAll (console : Console) (polled : List Polled) :
    ∃ events, polls events = polled.map (fun each => (each.1.pid, each.2)) ∧
      Runs (pollAll console (polled.map Prod.fst)) events (.value (noted (leaving polled))) := by
  induction polled with
  | nil => exact ⟨[], rfl, .done _⟩
  | cons first rest ih =>
    obtain ⟨job, answer⟩ := first
    obtain ⟨telling, tells⟩ := exists_complaint console job (understood answer)
    obtain ⟨others, polls_others, run⟩ := ih
    refine ⟨[.answered (.wait job.pid .poll) answer] ++ (telling ++ (others ++ [])), ?_, ?_⟩
    · simp [polls_complaint tells, polls_others]
    · rw [List.map_cons, pollAll_cons, ← noteDown_leaving]
      have polls : Runs (poll job) [.answered (.wait job.pid .poll) answer]
          (.value (understood answer)) := runs_poll_iff.2 ⟨answer, rfl, rfl⟩
      exact polls.bind (steady_poll job).contained <|
        tells.bind (contained_complaint ..) <|
        run.bind (contained_pollAll ..) <| .done _

/-! ## Taking jobs out -/

theorem nodup_ids (table : JobTable) : (table.jobs.map Job.id).Nodup :=
  List.pairwise_map.2 (table.ascending.imp Nat.ne_of_lt)

theorem job?_eq_some_iff {table : JobTable} {id : Nat} {job : Job} :
    table.job? id = some job ↔ job ∈ table.jobs ∧ job.id = id := by
  constructor
  · intro found
    exact ⟨List.mem_of_find?_eq_some found, by simpa using List.find?_some found⟩
  · rintro ⟨member, rfl⟩
    cases found : table.job? job.id with
    | none => simpa using List.find?_eq_none.1 found job member
    | some other =>
      have same : other.id = job.id := by simpa using List.find?_some found
      have other_member := List.mem_of_find?_eq_some found
      rw [List.inj_on_of_nodup_map table.nodup_ids other_member member same]

theorem takeOut_noted {table : JobTable} {left : List (Job × WaitStatus)}
    (part : (left.map Prod.fst).Sublist table.jobs) :
    (table.takeOut (noted left)).1 = left ∧
    (table.takeOut (noted left)).2.jobs =
      table.jobs.filter (fun job => ∀ each ∈ left, job.id ≠ each.1.id) ∧
    (table.takeOut (noted left)).2.nextId = table.nextId := by
  induction left generalizing table with
  | nil => exact ⟨rfl, (List.filter_eq_self.2 (by simp)).symm, rfl⟩
  | cons first rest ih =>
    obtain ⟨job, status⟩ := first
    have found : table.job? job.id = some job :=
      job?_eq_some_iff.2 ⟨part.subset List.mem_cons_self, rfl⟩
    have later : (rest.map Prod.fst).Sublist (table.remove job.id).jobs := by
      have ascending := List.pairwise_cons.1 (table.ascending.sublist part)
      have others : (rest.map Prod.fst).filter (·.id ≠ job.id) = rest.map Prod.fst :=
        List.filter_eq_self.2 fun other member => by
          simpa using Nat.ne_of_gt (ascending.1 other member)
      rw [← others]
      simpa [remove] using part.filter (·.id ≠ job.id)
    obtain ⟨found_later, jobs, nextId⟩ := ih later
    simp only [noted, List.map_cons, takeOut, found]
    refine ⟨by rw [found_later], ?_, nextId⟩
    rw [jobs, remove, List.filter_filter]
    refine List.filter_congr fun other _ => ?_
    rw [← Bool.decide_and]
    simp only [List.forall_mem_cons, and_comm]

theorem takeOut_leaving {table : JobTable} {polled : List Polled}
    (asked : polled.map Prod.fst = table.jobs) :
    (table.takeOut (noted (leaving polled))).1 = leaving polled ∧
    (table.takeOut (noted (leaving polled))).2.jobs = staying polled ∧
    (table.takeOut (noted (leaving polled))).2.nextId = table.nextId := by
  obtain ⟨left, jobs, nextId⟩ := takeOut_noted (asked ▸ sublist_leaving polled)
  refine ⟨left, ?_, nextId⟩
  have distinct : (polled.map fun each => each.1.id).Nodup := by
    have ids := table.nodup_ids
    rwa [← asked, List.map_map] at ids
  rw [jobs, ← asked, List.filter_map, staying]
  congr 1
  refine List.filter_congr fun each member => ?_
  cases parts : Polled.parting? each with
  | none =>
    -- Only this poll was for a job with this number.
    have apart : ∀ other ∈ leaving polled, each.1.id ≠ other.1.id := by
      rintro ⟨job, status⟩ left same
      obtain ⟨other, other_member, gone⟩ := List.mem_filterMap.1 left
      obtain ⟨_, other_parts, pair⟩ := Option.map_eq_some_iff.1 gone
      cases pair
      rw [List.inj_on_of_nodup_map distinct member other_member same, other_parts] at parts
      cases parts
    simpa using apart
  | some status =>
    have left : (each.1, status) ∈ leaving polled :=
      List.mem_filterMap.2 ⟨each, member, by rw [parts]; rfl⟩
    have same : ¬ ∀ other ∈ leaving polled, each.1.id ≠ other.1.id := fun apart => apart _ left rfl
    simpa using same

/-! ## Reaps -/

theorem lasting_reap {room : Nat} (table : JobTable) (console : Console) :
    (table.reap console).Lasting room :=
  (lasting_pollAll ..).bind fun _ _ _ => lasting_done _

theorem runs_reap {table table' : JobTable} {console : Console} {events : List Event}
    {left : List (Job × WaitStatus)}
    (run : Runs (table.reap console) events (.value (left, table'))) :
    ∃ polled : List Polled, polled.map Prod.fst = table.jobs ∧
      polls events = polled.map (fun each => (each.1.pid, each.2)) ∧
      left = leaving polled ∧ table'.jobs = staying polled ∧ table'.nextId = table.nextId := by
  rw [reap, Runs.bind_value_iff (contained_pollAll ..)] at run
  obtain ⟨polling, _, gone, rfl, polls_all, returns⟩ := run
  obtain ⟨rfl, same⟩ := runs_done_iff.1 returns
  obtain ⟨polled, asked, answers, rfl⟩ := runs_pollAll polls_all
  have taken := takeOut_leaving asked
  rw [← Outcome.value.inj same] at taken
  exact ⟨polled, asked, by simpa using answers, taken⟩

theorem exists_reap {table : JobTable} (console : Console) {polled : List Polled}
    (asked : polled.map Prod.fst = table.jobs) :
    ∃ events table', polls events = polled.map (fun each => (each.1.pid, each.2)) ∧
      Runs (table.reap console) events (.value (leaving polled, table')) := by
  obtain ⟨events, answers, run⟩ := exists_pollAll console polled
  refine ⟨events ++ [], (table.takeOut (noted (leaving polled))).2, by simpa using answers, ?_⟩
  rw [reap, ← asked]
  refine run.bind (contained_pollAll ..) ?_
  exact runs_done_iff.2 ⟨rfl, congrArg Outcome.value (Prod.ext (takeOut_leaving asked).1.symm rfl)⟩

end JobTable

end PipelineShell
