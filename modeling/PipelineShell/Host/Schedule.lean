import PipelineShell.Host.Service

/-!
# Scheduling

One process runs at a time, until it has to wait, ends, or has made a number of calls. The next one
is the first in the queue of processes that can go on. When none can, time passes until the
earliest sleep is over. The process that performs an action on behalf of the caller is one among
the others, except that its action may have a value.
-/

namespace PipelineShell.Host

inductive Progress (α : Type)
  | finished (value : α)
  | going (program : Action α) (moved : Bool)
  | over

/-- Runs a process for at most `calls` calls. `finish` turns the value of a forked child's program
into its exit status. -/
def burst {α : Type} (finish : α → Action Nat) (pid : Pid) :
    Nat → Bool → Action α → Host → Host × Progress α
  | 0, _, program, host => (host, .going program true)
  | calls + 1, moved, program, host =>
    match program with
    | .done value => (host, .finished value)
    | .exhausted => (host.endProcess pid (.killed 9), .over)
    | .call request next =>
      match host.process? pid with
      | none => (host, .over)
      | some process =>
        match request, next with
        | .fork, next =>
          let (host, child) := host.forkProcess process ((next (.ok .child)).bind finish)
          burst finish pid calls true (next (.ok (.parent child))) host
        | request, next =>
          match serve host process request with
          | (host, .reply value) => burst finish pid calls true (next value) host
          | (host, .blocked) => (host, .going (.call request next) moved)
          | (host, .over) => (host, .over)

def sliceLength : Nat := 4096

def requeue (host : Host) (pid : Pid) : Host :=
  match host.process? pid with
  | some process =>
    { host with processes := host.processes.filter (·.pid != pid) ++ [process] }
  | none => host

def runSlice (host : Host) (process : Process) (program : Action Nat) : Host × Bool :=
  match burst .done process.pid sliceLength false program host with
  | (host, .finished code) => (host.endProcess process.pid (.exited (code % 256)), true)
  | (host, .over) => (host, true)
  | (host, .going program moved) =>
    let host := host.modifyProcess process.pid fun p =>
      if p.isRunning then { p with life := .running program } else p
    (if moved then requeue host process.pid else host, moved)

def runAny (main : Option Pid) (host : Host) : List Process → Host × Bool
  | [] => (host, false)
  | process :: rest =>
    match process.life with
    | .ended _ => runAny main host rest
    | .running program =>
      if some process.pid = main then runAny main host rest
      else
        match runSlice host process program with
        | (host, true) => (host, true)
        | (host, false) => runAny main host rest

def passTime (host : Host) : Option Host :=
  match (host.processes.filterMap (·.wakeAt)).min? with
  | some time => some { host with clock := max host.clock time }
  | none => none

def runOut : Nat → Host → Host
  | 0, host => host
  | slices + 1, host =>
    match runAny none host host.processes with
    | (host, true) => runOut slices host
    | (host, false) =>
      match passTime host with
      | some host => runOut slices host
      | none => host

inductive Performed (α : Type)
  | value (value : α)
  | over
  | stuck

def performWithin {α : Type} (pid : Pid) : Nat → Host → Action α → Host × Performed α
  | 0, host, _ => (host, .stuck)
  | slices + 1, host, action =>
    match burst (fun _ => .done 1) pid sliceLength false action host with
    | (host, .finished value) => (host, .value value)
    | (host, .over) => (host, .over)
    | (host, .going action true) => performWithin pid slices host action
    | (host, .going action false) =>
      match runAny (some pid) host host.processes with
      | (host, true) =>
        if (host.process? pid).any (·.isRunning) then performWithin pid slices host action
        else (host, .over)
      | (host, false) =>
        match passTime host with
        | some host => performWithin pid slices host action
        | none => (host, .stuck)

def sliceLimit : Nat := 50000000

def perform {α : Type} (host : Host) (pid : Pid) (action : Action α) : Host × Performed α :=
  performWithin pid sliceLimit host action

def finish (host : Host) : Host := runOut sliceLimit host

end PipelineShell.Host
