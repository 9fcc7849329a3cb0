import PipelineShell.Settings
import PipelineShell.Token

/-!
# The job table

The background jobs that have not been collected yet, by their numbers. Numbers are handed out in
sequence and never used again.
-/

namespace PipelineShell

open PipelineShell.Action

structure Job where
  id : Nat
  pid : Int
  command : Word
deriving Repr, DecidableEq

namespace Job

abbrev Ascending (jobs : List Job) : Prop := jobs.Pairwise fun first second => first.id < second.id

/-- Enters a job by its number, in place of a job that has this number. -/
def insert (job : Job) : List Job → List Job
  | [] => [job]
  | other :: rest =>
    if job.id < other.id then job :: other :: rest
    else if job.id = other.id then job :: rest
    else other :: insert job rest

theorem insert_eq_append {job : Job} {jobs : List Job} (below : ∀ other ∈ jobs, other.id < job.id) :
    insert job jobs = jobs ++ [job] := by
  induction jobs with
  | nil => rfl
  | cons other rest ih =>
    have before : other.id < job.id := below other (by simp)
    have after := ih fun each member => below each (List.mem_cons_of_mem _ member)
    rw [insert, if_neg (by omega), if_neg (by omega), after]
    rfl

end Job

/-- The number that the counter of a table cannot reach. -/
def JobTable.idLimit : Nat := 0x100000000

namespace JobTable.New

theorem ascending : Job.Ascending [] := .nil

theorem below : ∀ job ∈ ([] : List Job), job.id < 1 := nofun

theorem inRange : 1 < idLimit := by decide

end JobTable.New

structure JobTable where
  jobs : List Job := []
  nextId : Nat := 1
  ascending : Job.Ascending jobs := by first | exact JobTable.New.ascending | decide
  below : ∀ job ∈ jobs, job.id < nextId := by first | exact JobTable.New.below | decide
  inRange : nextId < JobTable.idLimit := by first | exact JobTable.New.inRange | decide
deriving Repr, DecidableEq

namespace JobTable

@[ext] theorem ext {table table' : JobTable} (jobs : table.jobs = table'.jobs)
    (nextId : table.nextId = table'.nextId) : table = table' := by
  cases table
  cases table'
  simp_all

def add? (table : JobTable) (pid : Int) (command : Word) : Option JobTable :=
  if room : table.nextId + 1 < idLimit then
    some {
      jobs := Job.insert ⟨table.nextId, pid, command⟩ table.jobs
      nextId := table.nextId + 1
      ascending := by
        rw [Job.insert_eq_append table.below]
        refine List.pairwise_append.2 ⟨table.ascending, List.pairwise_singleton .., ?_⟩
        simpa using table.below
      below := by
        rw [Job.insert_eq_append table.below]
        intro job member
        rcases List.mem_append.1 member with old | last
        · exact Nat.lt_succ_of_lt (table.below job old)
        · simp [List.mem_singleton.1 last]
      inRange := room }
  else none

/-- Adds a job and returns its number. A process that has no number left gives up. -/
def add (table : JobTable) (pid : Int) (command : Word) : Action (Nat × JobTable) :=
  match table.add? pid command with
  | some table' => return (table.nextId, table')
  | none => giveUp

def length (table : JobTable) : Nat := table.jobs.length

def job? (table : JobTable) (id : Nat) : Option Job := table.jobs.find? (·.id = id)

def remove (table : JobTable) (id : Nat) : JobTable where
  jobs := table.jobs.filter (·.id ≠ id)
  nextId := table.nextId
  ascending := table.ascending.filter _
  below job member := table.below job (List.mem_filter.1 member |>.1)
  inRange := table.inRange

/-- What the answer to a poll says about a job: it has left with a status, it stays, or the poll
failed and it stays. A job that is no child any more has left, with nothing known about its end. -/
inductive Verdict
  | left (status : WaitStatus)
  | stays
  | failed (errno : Errno)
deriving Repr, DecidableEq

def verdict : Except Errno WaitStatus → Verdict
  | .ok .stillAlive => .stays
  | .ok status => .left status
  | .error errno => if errno = .noChild then .left .stillAlive else .failed errno

def poll (job : Job) : Action (Except Errno WaitStatus) := do
  match ← perform (.wait job.pid .poll) with
  | .ok report => return WaitStatus.ofReport report
  | .error errno => return .error errno

def pollAll (console : Console) : List Job → Action (List (Nat × WaitStatus))
  | [] => return []
  | job :: rest => do
    match verdict (← poll job) with
    | .left status => return (job.id, status) :: (← pollAll console rest)
    | .stays => pollAll console rest
    | .failed errno => do
      console.error ("job " ++ toString job.id ++ ": " ++ errno.text)
      pollAll console rest

def takeOut (table : JobTable) : List (Nat × WaitStatus) → List (Job × WaitStatus) × JobTable
  | [] => ([], table)
  | (id, status) :: rest =>
    let (others, left) := takeOut (table.remove id) rest
    match table.job? id with
    | some job => ((job, status) :: others, left)
    | none => (others, left)

def reap (table : JobTable) (console : Console) :
    Action (List (Job × WaitStatus) × JobTable) := do
  return table.takeOut (← pollAll console table.jobs)

end JobTable

end PipelineShell
