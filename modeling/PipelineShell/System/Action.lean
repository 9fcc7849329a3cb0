import PipelineShell.System.Call

/-!
# Actions

A program as a tree: it is done with a value, or it makes a system call and goes on according to
the reply. A fork is a call like any other; its continuation runs twice, once for each of the two
replies. Loops have a bound on their turns, and an action that has used up its turns is
`exhausted`, which is neither a value nor a failure.
-/

namespace PipelineShell

inductive Action (α : Type) : Type
  | done (value : α)
  | call (request : Call) (next : request.Reply → Action α)
  | exhausted

namespace Action

variable {α β σ : Type}

def bind : Action α → (α → Action β) → Action β
  | done value, f => f value
  | call request next, f => call request fun reply => (next reply).bind f
  | exhausted, _ => exhausted

instance : Monad Action where
  pure := done
  bind := bind

@[simp] theorem pure_eq (value : α) : (pure value : Action α) = done value := rfl

@[simp] theorem done_bind (value : α) (f : α → Action β) : (done value >>= f) = f value := rfl

@[simp] theorem call_bind (request : Call) (next : request.Reply → Action α) (f : α → Action β) :
    (call request next >>= f) = call request fun reply => next reply >>= f := rfl

@[simp] theorem exhausted_bind (f : α → Action β) : ((exhausted : Action α) >>= f) = exhausted :=
  rfl

theorem bind_assoc {γ : Type} (action : Action α) (f : α → Action β) (g : β → Action γ) :
    action >>= f >>= g = action >>= fun value => f value >>= g := by
  induction action with
  | done => rfl
  | call request next ih => simp [ih]
  | exhausted => rfl

@[simp] theorem bind_done (action : Action α) : action >>= done = action := by
  induction action with
  | done => rfl
  | call request next ih => simp [ih]
  | exhausted => rfl

def perform (request : Call) : Action request.Reply :=
  call request done

/-- What a turn of a loop decides: to go on from a new state, or to leave with a value. -/
inductive Turn (σ α : Type)
  | again (state : σ)
  | leave (value : α)

def loop (step : σ → Action (Turn σ α)) : Nat → σ → Action α
  | 0, _ => exhausted
  | turns + 1, state =>
    (step state).bind fun
      | .again state => loop step turns state
      | .leave value => done value

/-- More turns than any run of a program takes. -/
def patience : Nat := 0x4000000000000000

def uninterrupted (action : Action (Except Errno α)) : Action (Except Errno α) :=
  loop (fun _ => do
    match ← action with
    | .error errno => return if errno = .interrupted then .again () else .leave (.error errno)
    | .ok value => return .leave (.ok value)) patience ()

def writeTurn (descriptor : Descriptor) (data : ByteArray) :
    Action (Turn ByteArray (Except Errno Unit)) := do
  if data.isEmpty then return .leave (.ok ())
  match ← perform (.write descriptor data) with
  | .ok 0 => return .leave (.error .inputOutput)
  | .ok count => return .again (data.extract count data.size)
  | .error errno => return if errno = .interrupted then .again data else .leave (.error errno)

def writeAll (descriptor : Descriptor) (data : ByteArray) : Action (Except Errno Unit) :=
  loop (writeTurn descriptor) patience data

def readTurn (descriptor : Descriptor) (count : Nat) (data : ByteArray) :
    Action (Turn ByteArray (Except Errno ByteArray)) := do
  if count ≤ data.size then return .leave (.ok data)
  match ← perform (.read descriptor (count - data.size)) with
  | .ok more => return if more.isEmpty then .leave (.ok data) else .again (data ++ more)
  | .error errno => return if errno = .interrupted then .again data else .leave (.error errno)

def readFull (descriptor : Descriptor) (count : Nat) : Action (Except Errno ByteArray) :=
  loop (readTurn descriptor count) patience ByteArray.empty

def exit (code : Nat) : Action α :=
  call (.exit code) fun impossible => nomatch impossible

def die (signal : Nat) : Action α :=
  call (.die signal) fun impossible => nomatch impossible

def panicStatus : Nat := 101

def giveUp : Action α := exit panicStatus

def closeAll : List Descriptor → Action Unit
  | [] => done ()
  | descriptor :: rest => call (.close descriptor) fun _ => closeAll rest

end Action

end PipelineShell
