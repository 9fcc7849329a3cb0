import PipelineShell.Interpreter.Input
import PipelineShell.Proofs.System.Trace

namespace PipelineShell

open PipelineShell.Action

def Event.readsInput : Event → Bool
  | .answered (.read source _) _ => source == standardInput
  | _ => false

/-- The input is `unread` before the events and `left` after them. A read of standard input gives
what comes next, and nothing only at the end, or it is interrupted. Other programs may take bytes
while the process does anything else; all that they take is `taken`. -/
inductive Fed : List UInt8 → List Event → List UInt8 → List UInt8 → Prop
  | nil (unread : List UInt8) : Fed unread [] [] unread
  | read {data : ByteArray} {count : Nat} {unread taken left : List UInt8} {events : List Event}
      (fits : data.size ≤ count) (at_end : data.size = 0 → 0 < count → unread = [])
      (rest : Fed unread events taken left) :
      Fed (data.data.toList ++ unread) (.answered (.read standardInput count) (.ok data) :: events)
        taken left
  | interrupted {count : Nat} {unread taken left : List UInt8} {events : List Event}
      (rest : Fed unread events taken left) :
      Fed unread (.answered (.read standardInput count) (.error .interrupted) :: events) taken left
  | other {event : Event} {bytes unread taken left : List UInt8} {events : List Event}
      (deaf : event.readsInput = false) (rest : Fed unread events taken left) :
      Fed (bytes ++ unread) (event :: events) (bytes ++ taken) left

namespace Fed

variable {unread taken left : List UInt8} {events first second : List Event}

theorem of_nil (fed : Fed unread [] taken left) : taken = [] ∧ unread = left := by
  cases fed
  exact ⟨rfl, rfl⟩

theorem split (fed : Fed unread (first ++ second) taken left) :
    ∃ taken₁ middle taken₂, taken = taken₁ ++ taken₂ ∧ Fed unread first taken₁ middle ∧
      Fed middle second taken₂ left := by
  induction first generalizing unread taken with
  | nil => exact ⟨[], unread, taken, rfl, .nil unread, fed⟩
  | cons event first ih =>
    cases fed with
    | read fits at_end rest =>
      obtain ⟨taken₁, middle, taken₂, rfl, before, after⟩ := ih rest
      exact ⟨taken₁, middle, taken₂, rfl, .read fits at_end before, after⟩
    | interrupted rest =>
      obtain ⟨taken₁, middle, taken₂, rfl, before, after⟩ := ih rest
      exact ⟨taken₁, middle, taken₂, rfl, .interrupted before, after⟩
    | @other _ bytes _ _ _ _ deaf rest =>
      obtain ⟨taken₁, middle, taken₂, rfl, before, after⟩ := ih rest
      exact ⟨bytes ++ taken₁, middle, taken₂, (List.append_assoc ..).symm, .other deaf before,
        after⟩

theorem append {middle taken₁ taken₂ : List UInt8} (before : Fed unread first taken₁ middle)
    (after : Fed middle second taken₂ left) :
    Fed unread (first ++ second) (taken₁ ++ taken₂) left := by
  induction before with
  | nil => exact after
  | read fits at_end rest ih => exact .read fits at_end (ih after)
  | interrupted rest ih => exact .interrupted (ih after)
  | other deaf rest ih =>
    rw [List.append_assoc]
    exact .other deaf (ih after)

theorem of_deaf (unread : List UInt8) (deaf : ∀ event ∈ events, event.readsInput = false) :
    Fed unread events [] unread := by
  induction events with
  | nil => exact .nil unread
  | cons event events ih =>
    have others := ih fun event member => deaf event (List.mem_cons_of_mem _ member)
    exact @other event [] _ _ _ _ (deaf event List.mem_cons_self) others

theorem eq_of_deaf (fed : Fed unread events taken left)
    (deaf : ∀ event ∈ events, event.readsInput = false) : unread = taken ++ left := by
  induction fed with
  | nil unread => rfl
  | read | interrupted => cases deaf _ List.mem_cons_self
  | other _ rest ih =>
    rw [ih fun event member => deaf event (List.mem_cons_of_mem _ member), List.append_assoc]

end Fed

namespace Input

/-- The first line of the input `line ++ after` is `line`: it ends with the first newline, or the
input has none. -/
inductive CutsOff : List UInt8 → List UInt8 → Prop
  | newline (after : List UInt8) : CutsOff [newline] after
  | at_end : CutsOff [] []
  | cons {byte : UInt8} {line after : List UInt8} (other : byte ≠ newline)
    (cuts : CutsOff line after) : CutsOff (byte :: line) after

def pieces : List UInt8 → List (List UInt8)
  | [] => []
  | byte :: rest =>
    if byte = newline then [byte] :: pieces rest
    else match pieces rest with
      | [] => [[byte]]
      | piece :: others => (byte :: piece) :: others

theorem pieces_append {line after : List UInt8} (cuts : CutsOff line after) (some : line ≠ []) :
    pieces (line ++ after) = line :: pieces after := by
  induction cuts with
  | newline after => simp [pieces]
  | at_end => exact absurd rfl some
  | @cons byte line after other cuts ih =>
    rw [List.cons_append, pieces, if_neg other]
    by_cases last : line = []
    · subst last
      cases cuts
      rfl
    · rw [ih last]

theorem flatten_pieces (input : List UInt8) : (pieces input).flatten = input := by
  induction input with
  | nil => rfl
  | cons byte rest ih =>
    rw [pieces]
    split
    · simp [ih]
    · split
      next none => simpa [none] using ih
      next piece others some => simpa [some] using ih

def readByte (seen : List UInt8) : Action (Turn (List UInt8) (Except Errno (List UInt8))) := do
  match ← perform (.read standardInput 1) with
  | .ok data =>
    match data.data.toList with
    | [] => return .leave (.ok seen.reverse)
    | byte :: _ =>
      return if byte = newline then .leave (.ok (byte :: seen).reverse) else .again (byte :: seen)
  | .error errno =>
    return if errno = .interrupted then .again seen else .leave (.error errno)

theorem scriptBytes_eq (turns : Nat) : scriptBytes turns = loop readByte turns [] := rfl

theorem steady_readByte (seen : List UInt8) : (readByte seen).Steady := by
  refine steady_perform_bind rfl fun reply => ?_
  cases reply with
  | error errno => trivial
  | ok data =>
    dsimp only
    split <;> trivial

@[simp] theorem steady_scriptLine (turns : Nat) : (scriptLine turns).Steady := by
  refine (steady_loop steady_readByte turns []).bind fun result => ?_
  cases result with
  | error errno => trivial
  | ok bytes => cases bytes <;> trivial

theorem calls_scriptLine (turns : Nat) :
    (scriptLine turns).Calls (· = .read standardInput 1) := by
  have once (seen : List UInt8) : (readByte seen).Calls (· = .read standardInput 1) := by
    refine calls_perform_bind rfl rfl fun reply => ?_
    cases reply with
    | error errno => trivial
    | ok data =>
      dsimp only
      split <;> trivial
  refine (calls_loop once turns []).bind fun result => ?_
  cases result with
  | error errno => trivial
  | ok bytes => cases bytes <;> trivial

def afterByte (turns : Nat) (seen : List UInt8) :
    Except Errno ByteArray → Action (Except Errno (List UInt8))
  | .error errno =>
    if errno = .interrupted then loop readByte turns seen else done (.error errno)
  | .ok data =>
    match data.data.toList with
    | [] => done (.ok seen.reverse)
    | byte :: _ =>
      if byte = newline then done (.ok (byte :: seen).reverse)
      else loop readByte turns (byte :: seen)

theorem loop_readByte_succ (turns : Nat) (seen : List UInt8) :
    loop readByte (turns + 1) seen = perform (.read standardInput 1) >>= afterByte turns seen := by
  rw [loop_succ, readByte, Action.bind_assoc]
  congr 1
  funext reply
  rcases reply with errno | data
  · by_cases interrupted : errno = .interrupted <;> simp [afterByte, interrupted]
  · rcases contents : data.data.toList with _ | ⟨byte, more⟩
    · simp [afterByte, contents]
    · by_cases ends : byte = newline <;> simp [afterByte, contents, ends]

theorem runs_answered {turns : Nat} {seen : List UInt8} {reply : Except Errno ByteArray}
    {events : List Event} {outcome : Outcome (Except Errno (List UInt8))}
    (run : Runs (afterByte turns seen reply) events outcome) :
    Runs (loop readByte (turns + 1) seen) (.answered (.read standardInput 1) reply :: events)
      outcome := by
  rw [loop_readByte_succ]
  exact (runs_perform_bind_iff rfl).2 (.inr ⟨reply, events, rfl, run⟩)

theorem eq_empty_or_single {data : ByteArray} (fits : data.size ≤ 1) :
    data = ByteArray.empty ∨ ∃ byte, data = ⟨#[byte]⟩ := by
  obtain ⟨⟨contents⟩⟩ := data
  rcases contents with _ | ⟨byte, _ | ⟨second, more⟩⟩
  · exact .inl rfl
  · exact .inr ⟨byte, rfl⟩
  · exact absurd fits (by simp [ByteArray.size])

inductive ReadsLine : List UInt8 → List UInt8 → List Event → Prop
  | newline (after : List UInt8) :
    ReadsLine [newline] after [.answered (.read standardInput 1) (.ok ⟨#[newline]⟩)]
  | at_end : ReadsLine [] [] [.answered (.read standardInput 1) (.ok ByteArray.empty)]
  | byte {byte : UInt8} {line after : List UInt8} {events : List Event} (other : byte ≠ newline)
    (rest : ReadsLine line after events) :
    ReadsLine (byte :: line) after (.answered (.read standardInput 1) (.ok ⟨#[byte]⟩) :: events)
  | interrupted {line after : List UInt8} {events : List Event}
    (rest : ReadsLine line after events) :
    ReadsLine line after (.answered (.read standardInput 1) (.error .interrupted) :: events)

variable {events : List Event} {line after unread lost left : List UInt8} {turns : Nat}

namespace ReadsLine

theorem cuts (reads : ReadsLine line after events) : CutsOff line after := by
  induction reads with
  | newline after => exact .newline after
  | at_end => exact .at_end
  | byte other rest ih => exact .cons other ih
  | interrupted rest ih => exact ih

theorem length_pos (reads : ReadsLine line after events) : 0 < events.length := by
  cases reads <;> exact Nat.succ_pos _

theorem fed (reads : ReadsLine line after events) : Fed (line ++ after) events [] after := by
  induction reads with
  | newline after => exact @Fed.read ⟨#[Input.newline]⟩ 1 _ _ _ _ (Nat.le_refl 1) nofun (.nil after)
  | at_end => exact @Fed.read ByteArray.empty 1 _ _ _ _ (Nat.zero_le 1) (fun _ _ => rfl) (.nil [])
  | @byte byte _ _ _ _ _ ih => exact @Fed.read ⟨#[byte]⟩ 1 _ _ _ _ (Nat.le_refl 1) nofun ih
  | interrupted rest ih => exact .interrupted ih

theorem runs_readByte {seen : List UInt8} (reads : ReadsLine line after events)
    (enough : events.length ≤ turns) :
    Runs (loop readByte turns seen) events (.value (.ok (seen.reverse ++ line))) := by
  induction reads generalizing turns seen with
  | newline after =>
    obtain ⟨turns, rfl⟩ := Nat.exists_eq_add_of_le' enough
    apply runs_answered
    simpa [afterByte] using Runs.done _
  | at_end =>
    obtain ⟨turns, rfl⟩ := Nat.exists_eq_add_of_le' enough
    apply runs_answered
    simpa [afterByte] using Runs.done _
  | @byte byte line after events other rest ih =>
    obtain ⟨turns, rfl⟩ := Nat.exists_eq_add_of_le' enough
    have goes_on := @ih (turns + events.length) (byte :: seen) (Nat.le_add_left ..)
    apply runs_answered
    simpa [afterByte, other] using goes_on
  | @interrupted line after events rest ih =>
    obtain ⟨turns, rfl⟩ := Nat.exists_eq_add_of_le' enough
    apply runs_answered
    exact @ih (turns + events.length) seen (Nat.le_add_left ..)

end ReadsLine

/-- How the reading of a line comes out that has taken `taken` off an input and left `left`. A
reading that is not finished has met neither a newline nor the end. -/
inductive Takes {α : Type} (result : List UInt8 → α) (taken left : List UInt8)
    (events : List Event) : Outcome α → Prop
  | whole {value : α} (reads : ReadsLine taken left events) (same : value = result taken) :
    Takes result taken left events (.value value)
  | part (inside : newline ∉ taken) : Takes result taken left events (.ended .pending)

theorem takes_readByte {seen : List UInt8} {outcome : Outcome (Except Errno (List UInt8))}
    (run : Runs (loop readByte turns seen) events outcome) (fed : Fed unread events lost left) :
    lost = [] ∧ ∃ taken, unread = taken ++ left ∧
      Takes (fun line => .ok (seen.reverse ++ line)) taken left events outcome := by
  induction turns generalizing seen unread events with
  | zero =>
    cases run
    obtain ⟨rfl, rfl⟩ := fed.of_nil
    exact ⟨rfl, [], rfl, .part (by simp)⟩
  | succ turns ih =>
    rw [loop_readByte_succ] at run
    rcases (runs_perform_bind_iff rfl).1 run with ⟨rfl, rfl⟩ | ⟨reply, rest, rfl, goes_on⟩
    · obtain ⟨rfl, rfl⟩ := fed.of_nil
      exact ⟨rfl, [], rfl, .part (by simp)⟩
    cases fed with
    | other deaf => cases deaf
    | interrupted fed =>
      obtain ⟨nothing_lost, taken, rfl, takes⟩ := ih goes_on fed
      refine ⟨nothing_lost, taken, rfl, ?_⟩
      cases takes with
      | whole reads same => exact .whole (.interrupted reads) same
      | part inside => exact .part inside
    | @read data _ unread _ _ _ fits at_end fed =>
      rcases eq_empty_or_single fits with rfl | ⟨byte, rfl⟩
      · -- A read that gives nothing has met the end of the input.
        obtain ⟨rfl, rfl⟩ := runs_done_iff.1 goes_on
        obtain ⟨rfl, rfl⟩ := fed.of_nil
        obtain rfl := at_end rfl Nat.one_pos
        exact ⟨rfl, [], rfl, .whole .at_end (by simp)⟩
      · simp only [afterByte] at goes_on
        split at goes_on
        next ends =>
          obtain ⟨rfl, rfl⟩ := runs_done_iff.1 goes_on
          obtain ⟨rfl, rfl⟩ := fed.of_nil
          subst ends
          exact ⟨rfl, [newline], rfl, .whole (.newline _) (by simp)⟩
        next other =>
          obtain ⟨nothing_lost, taken, rfl, takes⟩ := ih goes_on fed
          refine ⟨nothing_lost, byte :: taken, rfl, ?_⟩
          cases takes with
          | whole reads same => exact .whole (.byte other reads) (by simpa using same)
          | part inside => exact .part (by simp [inside, Ne.symm other])

def passedOn (line : List UInt8) : Except FileError (Option Word) :=
  .ok (if line = [] then none else some (Utf8.decodeLossy line))

theorem scriptLine_eq (turns : Nat) :
    scriptLine turns = loop readByte turns [] >>= fun result =>
      match result with
      | .error errno => done (.error (.ofErrno errno))
      | .ok line => done (passedOn line) := by
  unfold scriptLine
  rw [scriptBytes_eq]
  congr 1
  funext result
  rcases result with errno | _ | ⟨byte, line⟩ <;> rfl

theorem runs_scriptLine_nil : Runs (scriptLine patience) [] (.ended .pending) := by
  rw [scriptLine_eq]
  obtain ⟨turns, patient⟩ := exists_patience
  rw [patient, loop_readByte_succ]
  exact .pending _ _

theorem ReadsLine.runs (reads : ReadsLine line after events) (enough : events.length ≤ turns) :
    Runs (scriptLine turns) events (.value (passedOn line)) := by
  rw [scriptLine_eq, ← List.append_nil events]
  have steady := steady_loop steady_readByte turns []
  exact (reads.runs_readByte enough).bind steady.contained (.done _)

theorem takes_line {outcome : Outcome (Except FileError (Option Word))}
    (run : Runs (scriptLine turns) events outcome) (fed : Fed unread events lost left) :
    lost = [] ∧ ∃ taken, unread = taken ++ left ∧ Takes passedOn taken left events outcome := by
  have steady := steady_loop steady_readByte turns []
  rw [scriptLine_eq] at run
  rcases (Runs.bind_iff steady.contained).1 run with
    ⟨reading, returning, result, rfl, reading_run, returns⟩ | ⟨fate, rfl, reading_run⟩
  · obtain ⟨lost, middle, none, rfl, fed, fed_none⟩ := fed.split
    obtain ⟨rfl, taken, rfl, takes⟩ := takes_readByte reading_run fed
    cases takes with
    | whole reads same =>
      subst same
      obtain ⟨rfl, rfl⟩ := runs_done_iff.1 returns
      obtain ⟨rfl, rfl⟩ := fed_none.of_nil
      rw [List.append_nil reading]
      exact ⟨rfl, taken, rfl, .whole reads rfl⟩
  · obtain rfl := reading_run.pending_of_steady steady
    obtain ⟨rfl, taken, rfl, takes⟩ := takes_readByte reading_run fed
    cases takes with
    | part inside => exact ⟨rfl, taken, rfl, .part inside⟩

end Input

end PipelineShell
