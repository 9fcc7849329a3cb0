import PipelineShell.Job.Table
import PipelineShell.Proofs.System.Trace

/-!
# Messages

A process that speaks to a user gives up if it cannot say what it has to say. `Action.Lasting`
states that an action ends its process in no other way, but for a job that there is no number for.

* `Console.lasting_print` and `Console.lasting_warn`: the last thing that a process has done that
  gives up over a message is to write this message in vain.
* `Action.Lasting.bind`: what comes after may use up the numbers that are left, one for each child.
-/

namespace PipelineShell

open PipelineShell.Action

variable {α β : Type} {events : List Event}

namespace Action

@[simp] theorem steady_uninterrupted {action : Action (Except Errno α)} (h : action.Steady) :
    (uninterrupted action).Steady :=
  steady_loop (fun _ => h.bind fun reply => by cases reply <;> trivial) _ _

@[simp] theorem steady_writeAll (descriptor : Descriptor) (data : ByteArray) :
    (writeAll descriptor data).Steady := by
  refine steady_loop (fun data => ?_) _ _
  unfold writeTurn
  split
  · trivial
  · refine steady_perform_bind rfl fun reply => ?_
    rcases reply with errno | _ | count <;> trivial

theorem calls_writeAll (descriptor : Descriptor) (data : ByteArray) :
    (writeAll descriptor data).Calls fun request => ∃ part, request = .write descriptor part := by
  apply calls_loop
  intro data
  unfold writeTurn
  split
  · trivial
  · refine calls_perform_bind ⟨data, rfl⟩ rfl fun reply => ?_
    rcases reply with errno | _ | count <;> trivial

@[simp] theorem steady_readFull (descriptor : Descriptor) (count : Nat) :
    (readFull descriptor count).Steady := by
  refine steady_loop (fun data => ?_) _ _
  unfold readTurn
  split
  · trivial
  · refine steady_perform_bind rfl fun reply => ?_
    cases reply <;> trivial

@[simp] theorem steady_closeAll (descriptors : List Descriptor) :
    (closeAll descriptors).Steady := by
  induction descriptors with
  | nil => trivial
  | cons descriptor rest ih => exact steady_call rfl fun _ => ih

end Action

theorem runs_closeAll_bind {β : Type} {descriptors : List Descriptor} {f : Unit → Action β}
    {events : List Event} {outcome : Outcome β}
    (run : Runs (closeAll descriptors >>= f) events outcome)
    (complete : outcome ≠ .ended .pending) :
    ∃ closing rest, events = closing ++ rest ∧ Only (IsClose descriptors) closing ∧
      Runs (f ()) rest outcome := by
  obtain ⟨closing, rest, _, rfl, closes, returns⟩ :=
    Runs.bind_complete (steady_closeAll _) complete run
  exact ⟨closing, rest, rfl, closes.only (calls_closeAll _), returns⟩

inductive Call.IsMessage : Call → Prop
  | warning (part : ByteArray) : IsMessage (.write standardError part)
  | print (text : String) : IsMessage (.print text)

/-- A message has been written in vain. -/
inductive Event.Unwritten : Event → Prop
  | refused (part : ByteArray) {errno : Errno} (final : errno ≠ .interrupted)
    (isOpen : errno ≠ .badDescriptor) :
    Unwritten (.answered (.write standardError part) (.error errno))
  | ignored (part : ByteArray) : Unwritten (.answered (.write standardError part) (.ok 0))
  | unprinted (text : String) (cause : FileError) :
    Unwritten (.answered (.print text) (.error cause))

def CutOff (events : List Event) : Prop := ∃ before last, events = before ++ [last] ∧ last.Unwritten

theorem not_cutOff_nil : ¬ CutOff [] := by
  rintro ⟨before, last, same, -⟩
  simp at same

theorem CutOff.prepend (first : List Event) (cutOff : CutOff events) : CutOff (first ++ events) := by
  obtain ⟨before, last, rfl, unwritten⟩ := cutOff
  exact ⟨first ++ before, last, by simp, unwritten⟩

/-- Why a process gives up that has `room` numbers left for jobs. -/
def GivesUp (room : Nat) (events : List Event) : Prop :=
  CutOff events ∨ room ≤ (children events).length

theorem GivesUp.prepend {room : Nat} {first : List Event}
    (givesUp : GivesUp (room - (children first).length) events) :
    GivesUp room (first ++ events) := by
  refine givesUp.imp (·.prepend first) fun used => ?_
  rw [children_append, List.length_append]
  omega

theorem GivesUp.mono {room less : Nat} (le : less ≤ room) (givesUp : GivesUp room events) :
    GivesUp less events :=
  givesUp.imp_right (Nat.le_trans le)

/-- The numbers that are left, the one included that a process gives up over. -/
def JobTable.room (table : JobTable) : Nat := JobTable.idLimit - table.nextId

namespace Action

theorem NeverReturns.exists_runs {action : Action α} (h : action.NeverReturns) :
    ∃ fate, Runs action [] (.ended fate) := by
  cases action with
  | done value => exact h.elim
  | exhausted => exact ⟨_, .exhausted⟩
  | call request next => exact ⟨_, .pending request next⟩

theorem Contained.bind_of_runs {action : Action α} {f : α → Action β} (h : action.Contained)
    (h' : ∀ first value, Runs action first (.value value) → (f value).Contained) :
    (action >>= f).Contained := by
  induction action with
  | done value => exact h' [] value (.done value)
  | exhausted => trivial
  | call request next ih =>
    refine ⟨fun reply member => (h.1 reply member).bind_left f, fun reply => ?_⟩
    by_cases single : request.forks reply = false
    · exact ih reply (h.2 reply) fun first value run => h' _ value (.call reply single run)
    · cases request
      case fork =>
        have inChild := h.1 _ rfl
        rcases reply with errno | _ | pid
        · cases single rfl
        · exact (inChild.bind_left f).contained
        · obtain ⟨fate, childRun⟩ := inChild.exists_runs
          exact ih _ (h.2 _) fun first value run => h' _ value (.fork pid childRun run)
      all_goals exact absurd rfl single

/-- No forked child returns from the action, and the process that has `room` numbers left for jobs
ends in it only if it gives up. -/
structure Lasting (room : Nat) (action : Action α) : Prop where
  contained : action.Contained
  ended : ∀ {events fate}, Runs action events (.ended fate) →
    fate = .pending ∨ fate = .exited panicStatus ∧ GivesUp room events

variable {room : Nat}

theorem Steady.lasting {action : Action α} (h : action.Steady) : action.Lasting room where
  contained := h.contained
  ended run := .inl (run.pending_of_steady h)

theorem lasting_done (value : α) : (done value).Lasting room := (steady_done value).lasting

theorem lasting_giveUp : (giveUp : Action α).Lasting 0 where
  contained := neverReturns_giveUp.contained
  ended run := by
    obtain ⟨rfl, same | same⟩ := runs_exit_iff.1 run
    · exact .inl (Outcome.ended.inj same)
    · exact .inr ⟨Outcome.ended.inj same, .inr (Nat.zero_le _)⟩

theorem Lasting.mono {less : Nat} {action : Action α} (h : action.Lasting room) (le : less ≤ room) :
    action.Lasting less where
  contained := h.contained
  ended run := (h.ended run).imp_right (And.imp_right (GivesUp.mono le))

theorem Lasting.cutOff {action : Action α} {fate : Fate} (h : ∀ room, action.Lasting room)
    (run : Runs action events (.ended fate)) :
    fate = .pending ∨ fate = .exited panicStatus ∧ CutOff events :=
  ((h ((children events).length + 1)).ended run).imp_right <| And.imp_right fun givesUp =>
    givesUp.resolve_right (Nat.not_succ_le_self _)

theorem Lasting.bind {action : Action α} {f : α → Action β} (h : action.Lasting room)
    (h' : ∀ first value, Runs action first (.value value) →
      (f value).Lasting (room - (children first).length)) : (action >>= f).Lasting room where
  contained := h.contained.bind_of_runs fun first value run => (h' first value run).contained
  ended run := by
    rcases (Runs.bind_iff h.contained).1 run with
      ⟨first, second, value, rfl, run, run'⟩ | ⟨fate, same, run⟩
    · exact ((h' first value run).ended run').imp_right (And.imp_right GivesUp.prepend)
    · cases same
      exact h.ended run

end Action

theorem runs_writeLoop_error {descriptor : Descriptor} {data : ByteArray} {turns : Nat}
    {errno : Errno}
    (run : Runs (loop (writeTurn descriptor) turns data) events (.value (.error errno))) :
    ∃ before part, events = before ++ [.answered (.write descriptor part) (.ok 0)] ∨
      events = before ++ [.answered (.write descriptor part) (.error errno)] ∧
        errno ≠ .interrupted := by
  induction turns generalizing data events with
  | zero => cases run
  | succ turns ih =>
    rw [loop_succ, writeTurn] at run
    split at run
    · cases (runs_done_iff.1 run).2
    rw [Action.bind_assoc] at run
    rcases (runs_perform_bind_iff rfl).1 run with ⟨-, ⟨⟩⟩ | ⟨reply, rest, rfl, again⟩
    rcases reply with cause | _ | count
    · by_cases interrupted : cause = .interrupted
      · simp only [interrupted, if_true, pure_eq, done_bind] at again
        obtain ⟨before, part, last⟩ := ih again
        exact ⟨.answered (.write descriptor data) (.error cause) :: before, part, by simpa using last⟩
      · simp only [interrupted, if_false, pure_eq, done_bind] at again
        obtain ⟨rfl, same⟩ := runs_done_iff.1 again
        cases same
        exact ⟨[], _, .inr ⟨rfl, interrupted⟩⟩
    · obtain ⟨rfl, -⟩ := runs_done_iff.1 again
      exact ⟨[], _, .inl rfl⟩
    · obtain ⟨before, part, last⟩ := ih again
      exact ⟨.answered (.write descriptor data) (.ok (count + 1)) :: before, part,
        by simpa using last⟩

theorem Action.runs_writeAll (descriptor : Descriptor) {data : ByteArray}
    (positive : 0 < data.size) :
    Runs (writeAll descriptor data) [.answered (.write descriptor data) (.ok data.size)]
      (.value (.ok ())) := by
  obtain ⟨turns, two_more⟩ := exists_patience
  obtain ⟨count, size⟩ : ∃ count, data.size = count + 1 := ⟨data.size - 1, by omega⟩
  have not_empty : ¬ data.isEmpty = true := by simp [ByteArray.isEmpty, size]
  have nothing_left : (data.extract (count + 1) data.size).isEmpty = true := by
    simp [ByteArray.isEmpty, size]
  rw [size, writeAll, two_more, loop_succ, writeTurn, if_neg not_empty, Action.bind_assoc]
  refine (runs_perform_bind_iff rfl).2 (.inr ⟨.ok (count + 1), [], rfl, ?_⟩)
  simp only [pure_eq, done_bind]
  rw [loop_succ, writeTurn, if_pos nothing_left]
  exact .done _

theorem Action.exists_writeAll (descriptor : Descriptor) (data : ByteArray) :
    ∃ events, Runs (writeAll descriptor data) events (.value (.ok ())) := by
  by_cases empty : data.isEmpty
  · obtain ⟨turns, more⟩ := exists_patience
    unfold writeAll
    rw [more, loop_succ, writeTurn]
    exact ⟨[], by simpa [empty] using Runs.done _⟩
  · have positive : 0 < data.size := by
      simpa [ByteArray.isEmpty, Nat.pos_iff_ne_zero] using empty
    exact ⟨_, runs_writeAll descriptor positive⟩

namespace Console

theorem runs_print (text : String) :
    Runs (print text) [.answered (.print text) (.ok ())] (.value ()) :=
  .call _ rfl (.done ())

theorem runs_warn {text : String} (positive : 0 < text.toUTF8.size) :
    Runs (warn text) [.answered (.write standardError text.toUTF8) (.ok text.toUTF8.size)]
      (.value ()) :=
  (runs_writeAll standardError positive).bind (steady_writeAll ..).contained (.done ())

theorem exists_warn (text : String) : ∃ events, Runs (warn text) events (.value ()) := by
  obtain ⟨events, run⟩ := exists_writeAll standardError text.toUTF8
  exact ⟨events ++ [], run.bind (steady_writeAll ..).contained (.done ())⟩

theorem exists_error (console : Console) (message : String) :
    ∃ events, Runs (console.error message) events (.value ()) :=
  exists_warn _

theorem calls_print (text : String) : (print text).Calls Call.IsMessage := by
  refine calls_perform_bind (.print text) rfl fun reply => ?_
  cases reply with
  | ok _ => trivial
  | error _ => exact calls_exit _

theorem calls_warn (text : String) :
    (warn text).Calls fun request => ∃ part, request = .write standardError part := by
  refine (calls_writeAll ..).bind fun written => ?_
  cases written with
  | ok _ => trivial
  | error errno =>
    dsimp only
    split
    · trivial
    · exact calls_exit _

theorem calls_error (console : Console) (message : String) :
    (console.error message).Calls fun request => ∃ part, request = .write standardError part :=
  calls_warn _

theorem calls_log (console : Console) (message : String) :
    (console.log message).Calls fun request => ∃ part, request = .write standardError part := by
  unfold log
  split
  · exact calls_warn _
  · trivial

end Console

theorem Call.IsMessage.of_warning {request : Call}
    (warning : ∃ part, request = .write standardError part) : request.IsMessage := by
  obtain ⟨part, rfl⟩ := warning
  exact .warning part

namespace Console

variable {room : Nat}

@[simp] theorem contained_print (text : String) : (print text).Contained :=
  contained_perform_bind rfl fun reply => by
    cases reply <;> simp [NeverReturns.contained]

theorem lasting_print (text : String) : (print text).Lasting room where
  contained := contained_print text
  ended run := by
    rcases (runs_perform_bind_iff rfl).1 run with ⟨-, same⟩ | ⟨reply, rest, rfl, goes⟩
    · cases same
      exact .inl rfl
    · cases reply with
      | ok _ => cases (runs_done_iff.1 goes).2
      | error cause =>
        obtain ⟨rfl, same | same⟩ := runs_exit_iff.1 goes
        · exact .inl (Outcome.ended.inj same)
        · exact .inr ⟨Outcome.ended.inj same, .inl ⟨[], _, rfl, .unprinted text cause⟩⟩

@[simp] theorem contained_warn (text : String) : (warn text).Contained := by
  refine (steady_writeAll ..).contained.bind fun written => ?_
  cases written with
  | ok _ => trivial
  | error errno =>
    dsimp only
    split
    · trivial
    · exact neverReturns_giveUp.contained

theorem lasting_warn (text : String) : (warn text).Lasting room where
  contained := contained_warn text
  ended run := by
    rcases (Runs.bind_iff (steady_writeAll ..).contained).1 run with
      ⟨first, second, written, rfl, writes, goes⟩ | ⟨fate, same, writes⟩
    · cases written with
      | ok _ => cases (runs_done_iff.1 goes).2
      | error errno =>
        dsimp only at goes
        split at goes
        · cases (runs_done_iff.1 goes).2
        · rename_i isOpen
          obtain ⟨rfl, same | same⟩ := runs_exit_iff.1 goes
          · exact .inl (Outcome.ended.inj same)
          · cases same
            rw [List.append_nil]
            obtain ⟨before, part, rfl | ⟨rfl, final⟩⟩ := runs_writeLoop_error writes
            · exact .inr ⟨rfl, .inl ⟨before, _, rfl, .ignored part⟩⟩
            · exact .inr ⟨rfl, .inl ⟨before, _, rfl, .refused part final isOpen⟩⟩
    · cases same
      exact .inl (writes.pending_of_steady (steady_writeAll ..))

@[simp] theorem contained_error (console : Console) (message : String) :
    (console.error message).Contained :=
  contained_warn _

theorem lasting_error (console : Console) (message : String) :
    (console.error message).Lasting room :=
  lasting_warn _

@[simp] theorem contained_log (console : Console) (message : String) :
    (console.log message).Contained := by
  unfold log
  split
  · exact contained_warn _
  · trivial

theorem lasting_log (console : Console) (message : String) :
    (console.log message).Lasting room := by
  unfold log
  split
  · exact lasting_warn _
  · exact lasting_done _

end Console

end PipelineShell
