import PipelineShell.Errno

/-!
# Signals and the ends of processes

How the kernel reports the end of a child, and how the report is decoded. Only the signals 1 to 31
have names; a child that another signal killed has been collected by the time its report turns out
not to decode.
-/

namespace PipelineShell

structure Signal where
  number : Nat
deriving Repr, DecidableEq

namespace Signal

def names : List String := [
  "SIGHUP", "SIGINT", "SIGQUIT", "SIGILL", "SIGTRAP", "SIGABRT", "SIGBUS", "SIGFPE", "SIGKILL",
  "SIGUSR1", "SIGSEGV", "SIGUSR2", "SIGPIPE", "SIGALRM", "SIGTERM", "SIGSTKFLT", "SIGCHLD",
  "SIGCONT", "SIGSTOP", "SIGTSTP", "SIGTTIN", "SIGTTOU", "SIGURG", "SIGXCPU", "SIGXFSZ",
  "SIGVTALRM", "SIGPROF", "SIGWINCH", "SIGIO", "SIGPWR", "SIGSYS"]

def interrupt : Signal := ⟨2⟩
def kill : Signal := ⟨9⟩
def brokenPipe : Signal := ⟨13⟩

def ofNumber? (number : Nat) : Option Signal :=
  if 1 ≤ number ∧ number ≤ names.length then some ⟨number⟩ else none

def name (signal : Signal) : String :=
  names.getD (signal.number - 1) ""

end Signal

inductive ChildReport
  | running
  | exited (code : Nat)
  | killed (signal : Nat)
deriving Repr, DecidableEq

inductive WaitStatus
  | exited (code : Nat)
  | signaled (signal : Signal)
  | stillAlive
deriving Repr, DecidableEq

namespace WaitStatus

/-- Decodes a report. A signal without a name is an invalid argument. -/
def ofReport : ChildReport → Except Errno WaitStatus
  | .running => .ok stillAlive
  | .exited code => .ok (exited code)
  | .killed number =>
    match Signal.ofNumber? number with
    | some signal => .ok (signaled signal)
    | none => .error .invalid

theorem ofReport_killed (number : Nat) : ofReport (.killed number) =
    if 1 ≤ number ∧ number ≤ 31 then .ok (signaled ⟨number⟩) else .error .invalid := by
  rw [ofReport, Signal.ofNumber?, show Signal.names.length = 31 from rfl]
  split <;> simp_all

def statusCode : WaitStatus → Nat
  | exited code => code
  | signaled signal => 128 + signal.number
  | stillAlive => 1

end WaitStatus

end PipelineShell
