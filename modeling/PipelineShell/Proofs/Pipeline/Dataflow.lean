import Mathlib.Logic.Function.Basic
import PipelineShell.Proofs.Pipeline.Network

/-!
# What flows through a pipeline

A program is seen here as a function from all that it reads to all that it writes. How it reads and
writes is left open: `Allows` says which requests are right for a program that computes a function,
and `Step` serves one request of one program. A `Network` knows of its programs only what they hold.

* `Computes`: what a network of programs computes.
* `Row`: programs that are connected one after the other.
-/

namespace PipelineShell.Dataflow

abbrev Bytes := List UInt8

inductive Stream
  | source
  | pipe (name : Name)
  | sink
deriving DecidableEq

inductive Request
  | read
  | write (bytes : Bytes)
  | stop

/-- How far a program has come. -/
structure Progress where
  taken : Bytes := []
  given : Bytes := []
  ended : Bool := false
  asks : Option Request

namespace Progress

/-- What a program can ask for that computes the function, without knowing the rest of its input. -/
def Allows (f : Bytes → Bytes) (progress : Progress) : Request → Prop
  | .read => progress.ended = false
  | .write bytes => bytes ≠ [] ∧ ∀ rest, (progress.ended = true → rest = []) →
      progress.given ++ bytes <+: f (progress.taken ++ rest)
  | .stop => ∀ rest, (progress.ended = true → rest = []) →
      progress.given = f (progress.taken ++ rest)

def Conforms (f : Bytes → Bytes) (progress : Progress) : Prop :=
  ∀ request, progress.asks = some request → progress.Allows f request

def took (progress : Progress) (chunk : Bytes) (next : Request) : Progress :=
  { progress with taken := progress.taken ++ chunk, asks := some next }

def sawEnd (progress : Progress) (next : Request) : Progress :=
  { progress with ended := true, asks := some next }

def gave (progress : Progress) (chunk : Bytes) (next : Request) : Progress :=
  { progress with given := progress.given ++ chunk, asks := some next }

def finish (progress : Progress) : Progress := { progress with asks := none }

end Progress

structure State where
  progress : Nat → Progress
  contents : Stream → Bytes

namespace State

def Finished (state : State) (i : Nat) : Prop := (state.progress i).asks = none

def advance (state : State) (i : Nat) (progress : Progress) : State :=
  { state with progress := Function.update state.progress i progress }

def fill (state : State) (stream : Stream) (bytes : Bytes) : State :=
  { state with contents := Function.update state.contents stream bytes }

@[simp] theorem advance_progress (state : State) (i : Nat) (progress : Progress) :
    (state.advance i progress).progress i = progress := Function.update_self ..

theorem advance_progress_of_ne (state : State) {i j : Nat} (progress : Progress) (other : j ≠ i) :
    (state.advance i progress).progress j = state.progress j := Function.update_of_ne other ..

@[simp] theorem advance_contents (state : State) (i : Nat) (progress : Progress) :
    (state.advance i progress).contents = state.contents := rfl

@[simp] theorem fill_contents (state : State) (stream : Stream) (bytes : Bytes) :
    (state.fill stream bytes).contents stream = bytes := Function.update_self ..

theorem fill_contents_of_ne (state : State) {stream other : Stream} (bytes : Bytes)
    (apart : other ≠ stream) : (state.fill stream bytes).contents other = state.contents other :=
  Function.update_of_ne apart ..

end State

/-- Programs that run together, one function for each of them. The source is what `input` referred
to at the start, the sink what `output` did. -/
structure Network where
  images : List Image
  functions : List (Bytes → Bytes)
  input : Descriptor
  output : Descriptor
  capacity : Nat
  scheduling : Scheduling

namespace Network

variable (net : Network) (state : State)

def function (i : Nat) : Bytes → Bytes := net.functions.getD i id

def reads (i : Nat) : Option Stream :=
  match net.images[i]?.bind (·.holds standardInput) with
  | some (.original descriptor) => if descriptor = net.input then some .source else none
  | some (.readEnd pipe) => some (.pipe pipe)
  | _ => none

def writes (i : Nat) : Option Stream :=
  match net.images[i]?.bind (·.holds standardOutput) with
  | some (.original descriptor) => if descriptor = net.output then some .sink else none
  | some (.writeEnd pipe) => some (.pipe pipe)
  | _ => none

def Holds (i : Nat) (object : Object) : Prop :=
  ∃ image, net.images[i]? = some image ∧ ∃ descriptor, image.holds descriptor = some object

/-- Every program that holds the object has finished. -/
def Released (object : Object) : Prop := ∀ i, net.Holds i object → state.Finished i

/-- Under sequential scheduling a program starts when those before it have finished. -/
def Active (i : Nat) : Prop :=
  i < net.images.length ∧ (net.scheduling = .sequential → ∀ j < i, state.Finished j)

def Dry : Stream → Prop
  | .source => True
  | .pipe pipe => net.Released state (.writeEnd pipe)
  | .sink => False

def Room (size : Nat) : Stream → Prop
  | .source => False
  | .pipe pipe => (state.contents (.pipe pipe)).length + size ≤ net.capacity ∧
      ¬ net.Released state (.readEnd pipe)
  | .sink => True

end Network

/-- Program `i` is served. A write may be served in part, and one into a pipe that nobody can read
from any more ends the program. -/
inductive Step (net : Network) (i : Nat) (state : State) : State → Prop
  | take {stream : Stream} {chunk left : Bytes} {next : Request} (active : net.Active state i)
    (asks : (state.progress i).asks = some .read) (reads : net.reads i = some stream)
    (held : state.contents stream = chunk ++ left) (nonempty : chunk ≠ [])
    (conforms : ((state.progress i).took chunk next).Conforms (net.function i)) :
    Step net i state ((state.fill stream left).advance i ((state.progress i).took chunk next))
  | sawEnd {stream : Stream} {next : Request} (active : net.Active state i)
    (asks : (state.progress i).asks = some .read) (reads : net.reads i = some stream)
    (empty : state.contents stream = []) (dry : net.Dry state stream)
    (conforms : ((state.progress i).sawEnd next).Conforms (net.function i)) :
    Step net i state (state.advance i ((state.progress i).sawEnd next))
  | give {stream : Stream} {chunk left : Bytes} {next : Request} (active : net.Active state i)
    (asks : (state.progress i).asks = some (.write (chunk ++ left)))
    (writes : net.writes i = some stream) (nonempty : chunk ≠ [])
    (room : net.Room state chunk.length stream)
    (conforms : ((state.progress i).gave chunk next).Conforms (net.function i)) :
    Step net i state ((state.fill stream (state.contents stream ++ chunk)).advance i
      ((state.progress i).gave chunk next))
  | broken {pipe : Name} {bytes : Bytes} (active : net.Active state i)
    (asks : (state.progress i).asks = some (.write bytes))
    (writes : net.writes i = some (.pipe pipe)) (released : net.Released state (.readEnd pipe)) :
    Step net i state (state.advance i (state.progress i).finish)
  | stop (active : net.Active state i) (asks : (state.progress i).asks = some .stop) :
    Step net i state (state.advance i (state.progress i).finish)

structure Initial (net : Network) (bytes : Bytes) (state : State) : Prop where
  fresh : ∀ i, ∃ request, state.progress i = { asks := some request }
  conforms : ∀ i, (state.progress i).Conforms (net.function i)
  contents : ∀ stream, state.contents stream = if stream = .source then bytes else []

inductive Reachable (net : Network) (bytes : Bytes) : State → Prop
  | initial {state : State} (initial : Initial net bytes state) : Reachable net bytes state
  | step {state state' : State} {i : Nat} (reachable : Reachable net bytes state)
    (step : Step net i state state') : Reachable net bytes state'

/-- However the programs run, they come to an end, and then the sink has received exactly the
result. -/
structure Computes (net : Network) (bytes result : Bytes) : Prop where
  starts : ∃ state, Initial net bytes state
  ends : ∀ run : Nat → State, Initial net bytes (run 0) →
    ¬ ∀ k, ∃ i, Step net i (run k) (run (k + 1))
  delivered : ∀ state, Reachable net bytes state → (∀ i state', ¬ Step net i state state') →
    state.contents .sink = result ∧ ∀ i < net.images.length, state.Finished i

def link (pipes : List Name) : Nat → Stream
  | 0 => .source
  | i + 1 => (pipes[i]?).elim .sink .pipe

theorem link_last (pipes : List Name) : link pipes (pipes.length + 1) = .sink := by
  simp [link]

theorem link_succ {pipes : List Name} {i : Nat} {pipe : Name} (at_i : pipes[i]? = some pipe) :
    link pipes (i + 1) = .pipe pipe := by
  simp [link, at_i]

theorem link_succ_ne_source {pipes : List Name} {i : Nat} : link pipes (i + 1) ≠ .source := by
  cases found : pipes[i]? <;> simp [link, found]

def through (functions : List (Bytes → Bytes)) (bytes : Bytes) : Bytes :=
  functions.foldl (fun read f => f read) bytes

def Network.full (net : Network) (bytes : Bytes) (i : Nat) : Bytes :=
  through (net.functions.take i) bytes

theorem Network.full_succ (net : Network) (bytes : Bytes) (i : Nat) :
    net.full bytes (i + 1) = net.function i (net.full bytes i) := by
  unfold full function through
  rw [List.take_add_one, List.foldl_append, List.getD_eq_getElem?_getD]
  cases net.functions[i]? <;> rfl

structure Row (net : Network) (pipes : List Name) : Prop where
  wired : Wired net.images pipes net.input net.output
  outlet_eq : outlet pipes net.input net.output = .original net.output

namespace Row

variable {net : Network} {pipes : List Name} {state : State} {i j : Nat}

theorem image (row : Row net pipes) (le : i ≤ pipes.length) : ∃ image, net.images[i]? = some image := by
  have below : i < net.images.length := by
    rw [row.wired.length_eq]
    omega
  exact ⟨_, List.getElem?_eq_getElem below⟩

theorem reads_eq (row : Row net pipes) (le : i ≤ pipes.length) :
    net.reads i = some (link pipes i) := by
  obtain ⟨image, at_i⟩ := row.image le
  unfold Network.reads
  rw [at_i, Option.bind_some]
  cases i with
  | zero => rw [row.wired.holds_input_zero at_i]; simp [link]
  | succ i =>
    obtain ⟨pipe, at_pipe, held⟩ := row.wired.holds_input_succ at_i
    rw [held, link_succ at_pipe]

theorem writes_eq (row : Row net pipes) (le : i ≤ pipes.length) :
    net.writes i = some (link pipes (i + 1)) := by
  obtain ⟨image, at_i⟩ := row.image le
  unfold Network.writes
  rw [at_i, Option.bind_some]
  rcases Nat.lt_or_eq_of_le le with below | rfl
  · have at_pipe := List.getElem?_eq_getElem below
    rw [row.wired.holds_output at_i at_pipe, link_succ at_pipe]
  · rw [row.wired.holds_output_last at_i, row.outlet_eq, link_last]
    exact if_pos rfl

theorem link_inj (row : Row net pipes) (le_i : i ≤ pipes.length + 1) (le_j : j ≤ pipes.length + 1)
    (same : link pipes i = link pipes j) : i = j := by
  have at_succ : ∀ {k}, k + 1 ≤ pipes.length + 1 → k = pipes.length ∨
      ∃ pipe, pipes[k]? = some pipe := by
    intro k le
    rcases Nat.lt_or_eq_of_le (Nat.le_of_succ_le_succ le) with below | last
    · exact .inr ⟨_, List.getElem?_eq_getElem below⟩
    · exact .inl last
  match i, j with
  | 0, 0 => rfl
  | 0, _ + 1 => exact absurd same.symm link_succ_ne_source
  | _ + 1, 0 => exact absurd same link_succ_ne_source
  | i + 1, j + 1 =>
    rcases at_succ le_i with rfl | ⟨pipe, at_i⟩ <;> rcases at_succ le_j with rfl | ⟨pipe', at_j⟩
    · rfl
    · simp [link_last, link_succ at_j] at same
    · simp [link_last, link_succ at_i] at same
    · rw [link_succ at_i, link_succ at_j] at same
      cases same
      exact congrArg (· + 1) (row.wired.index_eq at_i at_j)

theorem released_writeEnd_iff (row : Row net pipes) {pipe : Name} (at_i : pipes[i]? = some pipe) :
    net.Released state (.writeEnd pipe) ↔ state.Finished i := by
  constructor
  · intro released
    obtain ⟨image, at_image⟩ := row.image (Nat.le_of_lt (List.getElem?_eq_some_iff.1 at_i).1)
    exact released i ⟨image, at_image, (row.wired.holds_writeEnd_iff at_i at_image).2 rfl⟩
  · rintro finished j ⟨image, at_image, held⟩
    obtain rfl := (row.wired.holds_writeEnd_iff at_i at_image).1 held
    exact finished

theorem released_readEnd_iff (row : Row net pipes) {pipe : Name} (at_i : pipes[i]? = some pipe) :
    net.Released state (.readEnd pipe) ↔ state.Finished (i + 1) := by
  constructor
  · intro released
    obtain ⟨image, at_image⟩ := row.image (List.getElem?_eq_some_iff.1 at_i).1
    exact released (i + 1) ⟨image, at_image, (row.wired.holds_readEnd_iff at_i at_image).2 rfl⟩
  · rintro finished j ⟨image, at_image, held⟩
    obtain rfl := (row.wired.holds_readEnd_iff at_i at_image).1 held
    exact finished

theorem le_of_active (row : Row net pipes) (active : net.Active state i) : i ≤ pipes.length := by
  have below := active.1
  rw [row.wired.length_eq] at below
  omega

end Row

end PipelineShell.Dataflow
