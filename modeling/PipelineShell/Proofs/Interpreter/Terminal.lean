import Mathlib.Data.List.TakeDrop
import Mathlib.Data.List.TakeWhile
import PipelineShell.Proofs.Interpreter.Input
import PipelineShell.Proofs.System.Law

namespace PipelineShell

open PipelineShell.Action

namespace Utf8

theorem replaced_of_wellFormed? {parts : List (Option Char)} {text : List Char}
    (wellFormed : wellFormed? parts = some text) : replaced parts = text := by
  induction parts generalizing text with
  | nil =>
    cases wellFormed
    rfl
  | cons part parts ih =>
    cases part with
    | none => cases wellFormed
    | some c =>
      obtain ⟨rest, others, rfl⟩ := Option.map_eq_some_iff.1 wellFormed
      rw [← ih others]
      rfl

theorem decodeLossy_of_decode? {bytes : List UInt8} {text : List Char}
    (wellFormed : decode? bytes = some text) : decodeLossy bytes = text :=
  replaced_of_wellFormed? wellFormed

end Utf8

namespace Input

variable {events : List Event} {unread taken left : List UInt8} {turns : Nat}

theorem cutsOff_concat {part : List UInt8} (inside : newline ∉ part) (after : List UInt8) :
    CutsOff (part ++ [newline]) after := by
  induction part with
  | nil => exact .newline after
  | cons byte part ih =>
    obtain ⟨other, inside⟩ := not_or.1 (mt List.mem_cons.2 inside)
    exact .cons (Ne.symm other) (ih inside)

theorem cutsOff_rest {part : List UInt8} (inside : newline ∉ part) : CutsOff part [] := by
  induction part with
  | nil => exact .at_end
  | cons byte part ih =>
    obtain ⟨other, inside⟩ := not_or.1 (mt List.mem_cons.2 inside)
    exact .cons (Ne.symm other) (ih inside)

theorem CutsOff.at_end_iff {line after : List UInt8} (cuts : CutsOff line after) :
    line = [] ↔ line ++ after = [] := by
  cases cuts <;> simp

theorem others_of_not_mem {part : List UInt8} (inside : newline ∉ part) :
    ∀ byte ∈ part, decide (byte ≠ newline) = true := by
  intro byte member
  rw [decide_eq_true_iff]
  rintro rfl
  exact inside member

theorem span_closed {before : List UInt8} (inside : newline ∉ before) (after : List UInt8) :
    (before ++ newline :: after).span (· ≠ newline) = (before, newline :: after) := by
  have others := others_of_not_mem inside
  rw [List.span_eq_takeWhile_dropWhile, List.takeWhile_append_of_pos others,
    List.dropWhile_append_of_pos others]
  simp

theorem span_open {buffer : List UInt8} (inside : newline ∉ buffer) :
    buffer.span (· ≠ newline) = (buffer, []) := by
  have others := others_of_not_mem inside
  rw [List.span_eq_takeWhile_dropWhile, List.takeWhile_eq_self_iff.2 others,
    List.dropWhile_eq_nil_iff.2 others]

def readChunk (state : List UInt8 × List UInt8) :
    Action (Turn (List UInt8 × List UInt8) Buffered) :=
  match state.2.span (· ≠ newline) with
  | (before, byte :: after) => return .leave ⟨.ok (state.1 ++ before ++ [byte]), after⟩
  | (before, []) => do
    match ← perform (.read standardInput bufferSize) with
    | .ok data =>
      return if data.isEmpty then .leave ⟨.ok (state.1 ++ before), []⟩
        else .again (state.1 ++ before, data.data.toList)
    | .error errno =>
      return if errno = .interrupted then .again (state.1 ++ before, [])
        else .leave ⟨.error (.ofErrno errno), []⟩

theorem terminalBytes_eq (turns : Nat) (buffer : List UInt8) :
    terminalBytes turns buffer = loop readChunk turns ([], buffer) := rfl

theorem calls_readChunk (state : List UInt8 × List UInt8) :
    (readChunk state).Calls (· = .read standardInput bufferSize) := by
  unfold readChunk
  split
  · trivial
  · refine calls_perform_bind rfl rfl fun reply => ?_
    cases reply <;> trivial

theorem steady_readChunk (state : List UInt8 × List UInt8) : (readChunk state).Steady := by
  unfold readChunk
  split
  · trivial
  · refine steady_perform_bind rfl fun reply => ?_
    cases reply <;> trivial

theorem loop_readChunk_closed {before : List UInt8} (inside : newline ∉ before)
    (after : List UInt8) (turns : Nat) (bytes : List UInt8) :
    loop readChunk (turns + 1) (bytes, before ++ newline :: after) =
      done ⟨.ok (bytes ++ before ++ [newline]), after⟩ := by
  rw [loop_succ, readChunk, span_closed inside]
  rfl

def afterChunk (turns : Nat) (bytes : List UInt8) : Except Errno ByteArray → Action Buffered
  | .ok data =>
    if data.isEmpty then done ⟨.ok bytes, []⟩ else loop readChunk turns (bytes, data.data.toList)
  | .error errno =>
    if errno = .interrupted then loop readChunk turns (bytes, [])
    else done ⟨.error (.ofErrno errno), []⟩

theorem loop_readChunk_open {buffer : List UInt8} (inside : newline ∉ buffer) (turns : Nat)
    (bytes : List UInt8) :
    loop readChunk (turns + 1) (bytes, buffer) =
      perform (.read standardInput bufferSize) >>= afterChunk turns (bytes ++ buffer) := by
  rw [loop_succ, readChunk, span_open inside, Action.bind_assoc]
  congr 1
  funext reply
  rcases reply with errno | data
  · by_cases interrupted : errno = .interrupted <;> simp [afterChunk, interrupted]
  · by_cases empty : data.isEmpty = true <;> simp [afterChunk, empty]

theorem takes_readChunk {bytes buffer : List UInt8} {result : Buffered}
    (inside : newline ∉ bytes)
    (run : Runs (loop readChunk turns (bytes, buffer)) events (.value result))
    (fed : Fed unread events taken left) :
    taken = [] ∧ ∃ line, result.line = .ok line ∧ CutsOff line (result.buffer ++ left) ∧
      bytes ++ (buffer ++ unread) = line ++ (result.buffer ++ left) := by
  -- What was read, the buffer and what is unread are together the same before and after a read.
  induction turns generalizing bytes buffer unread events with
  | zero => cases run
  | succ turns ih =>
    by_cases closed : newline ∈ buffer
    · obtain ⟨before, after, rfl, inside'⟩ := List.eq_append_cons_of_mem closed
      rw [loop_readChunk_closed inside'] at run
      obtain ⟨rfl, ⟨⟩⟩ := runs_done_iff.1 run
      obtain ⟨rfl, rfl⟩ := fed.of_nil
      have inside'' : newline ∉ bytes ++ before := by simp [inside, inside']
      exact ⟨rfl, _, rfl, cutsOff_concat inside'' _, by simp⟩
    · rw [loop_readChunk_open closed] at run
      rcases (runs_perform_bind_iff rfl).1 run with ⟨-, ⟨⟩⟩ | ⟨reply, rest, rfl, goes_on⟩
      have inside' : newline ∉ bytes ++ buffer := by simp [inside, closed]
      cases fed with
      | other deaf => cases deaf
      | interrupted fed =>
        obtain ⟨nobody, line, same, cuts, whole⟩ := ih inside' goes_on fed
        exact ⟨nobody, line, same, cuts, by simpa using whole⟩
      | @read data _ unread _ _ _ fits at_end fed =>
        rw [afterChunk] at goes_on
        split at goes_on
        next empty =>
          -- A read that gives nothing has met the end of the input.
          obtain ⟨rfl, ⟨⟩⟩ := runs_done_iff.1 goes_on
          obtain ⟨rfl, rfl⟩ := fed.of_nil
          have size : data.size = 0 := by simpa [ByteArray.isEmpty] using empty
          obtain rfl := at_end size (by decide)
          have nothing : data.data.toList = [] := List.eq_nil_of_length_eq_zero size
          exact ⟨rfl, _, rfl, cutsOff_rest inside', by simp [nothing]⟩
        next =>
          obtain ⟨nobody, line, same, cuts, whole⟩ := ih inside' goes_on fed
          exact ⟨nobody, line, same, cuts, by simpa using whole⟩

def legible (strict : Bool) (line : List UInt8) : Bool :=
  !strict || (Utf8.decode? line).isSome

def handedOn (strict : Bool) (line : List UInt8) : Except FileError (Option Word) :=
  if line = [] then .ok none
  else if legible strict line then .ok (some (Utf8.decodeLossy line)) else .error invalidText

theorem handedOn_of_legible {strict : Bool} {line : List UInt8} (some : line ≠ [])
    (reads : legible strict line = true) :
    handedOn strict line = .ok (.some (Utf8.decodeLossy line)) := by
  rw [handedOn, if_neg some, if_pos reads]

theorem handedOn_of_illegible {strict : Bool} {line : List UInt8} (some : line ≠ [])
    (illegible : legible strict line = false) : handedOn strict line = .error invalidText := by
  simp [handedOn, some, illegible]

theorem passedOn_eq (line : List UInt8) : passedOn line = handedOn false line := by
  by_cases last : line = [] <;> simp [passedOn, handedOn, legible, last]

theorem terminalLine_eq (turns : Nat) (buffer : List UInt8) :
    terminalLine turns buffer = loop readChunk turns ([], buffer) >>= fun result =>
      match result.line with
      | .error error => done (.error error, result.buffer)
      | .ok line => done (handedOn true line, result.buffer) := by
  unfold terminalLine
  rw [terminalBytes_eq]
  congr 1
  funext ⟨line, buffer⟩
  rcases line with error | _ | ⟨byte, line⟩
  · rfl
  · rfl
  · have some : byte :: line ≠ [] := List.cons_ne_nil byte line
    cases read : Utf8.decode? (byte :: line) with
    | none => simp [read, handedOn, legible]
    | some text => simp [read, handedOn, legible, Utf8.decodeLossy_of_decode? read]

theorem steady_terminalLine (turns : Nat) (buffer : List UInt8) :
    (terminalLine turns buffer).Steady := by
  rw [terminalLine_eq]
  refine (steady_loop steady_readChunk turns _).bind fun result => ?_
  cases result.line <;> trivial

theorem calls_terminalLine (turns : Nat) (buffer : List UInt8) :
    (terminalLine turns buffer).Calls (· = .read standardInput bufferSize) := by
  rw [terminalLine_eq]
  refine (calls_loop calls_readChunk turns _).bind fun result => ?_
  cases result.line <;> trivial

theorem takes_terminalLine {buffer buffer' : List UInt8} {result : Except FileError (Option Word)}
    (run : Runs (terminalLine turns buffer) events (.value (result, buffer')))
    (fed : Fed unread events taken left) :
    taken = [] ∧ ∃ line, result = handedOn true line ∧ CutsOff line (buffer' ++ left) ∧
      buffer ++ unread = line ++ (buffer' ++ left) := by
  rw [terminalLine_eq, Runs.bind_value_iff (steady_loop steady_readChunk turns _).contained] at run
  obtain ⟨reading, returning, read, rfl, reading_run, returns⟩ := run
  obtain ⟨taken, middle, nobody, rfl, fed, fed_nobody⟩ := fed.split
  obtain ⟨rfl, line, same, cuts, whole⟩ := takes_readChunk List.not_mem_nil reading_run fed
  simp only [same] at returns
  obtain ⟨rfl, ⟨⟩⟩ := runs_done_iff.1 returns
  obtain ⟨rfl, rfl⟩ := fed_nobody.of_nil
  exact ⟨rfl, line, rfl, cuts, whole⟩

theorem runs_terminalLine {buffer before after : List UInt8} {data : ByteArray}
    (started : newline ∉ buffer) (inside : newline ∉ before)
    (contents : data.data.toList = before ++ newline :: after) :
    Runs (terminalLine patience buffer) [.answered (.read standardInput bufferSize) (.ok data)]
      (.value (handedOn true (buffer ++ before ++ [newline]), after)) := by
  obtain ⟨turns, two_more⟩ := exists_patience
  have some : data.isEmpty = false := by
    have length : data.size = (before ++ newline :: after).length := by
      rw [← contents]
      rfl
    simp [ByteArray.isEmpty, length]
  have goes_on : afterChunk (turns + 1) ([] ++ buffer) (.ok data) =
      done ⟨.ok (buffer ++ before ++ [newline]), after⟩ := by
    rw [afterChunk, some, if_neg Bool.false_ne_true, contents, loop_readChunk_closed inside,
      List.nil_append]
  rw [terminalLine_eq, two_more, loop_readChunk_open started, Action.bind_assoc]
  refine (runs_perform_bind_iff rfl).2 (.inr ⟨.ok data, [], rfl, ?_⟩)
  rw [goes_on]
  exact .done _

end Input

end PipelineShell
