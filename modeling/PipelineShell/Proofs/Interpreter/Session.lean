import PipelineShell.Proofs.Interpreter.Execution
import PipelineShell.Proofs.Interpreter.Input

namespace PipelineShell

open PipelineShell.Action PipelineShell.Input

theorem Event.readsInput_of_unnamed {event : Event}
    (unnamed : ∀ request reply, event = .answered request reply →
      request.names standardInput = false) : event.readsInput = false := by
  cases event with
  | forked pid child fate => rfl
  | answered request reply =>
    have h := unnamed request reply rfl
    cases request with
    | read source count => exact h
    | _ => rfl

structure Stands (table : Table) (unread : List UInt8) (events : List Event)
    (taken left : List UInt8) : Prop where
  lawful : Lawful table events
  isOpen : table standardInput ≠ .nothing
  fed : Fed unread events taken left

namespace Stands

variable {α : Type} {table : Table} {unread taken left : List UInt8} {first second : List Event}
  {action : Action α} {outcome : Outcome α} {post : α → Prop}

theorem skip (stands : Stands table unread (first ++ second) taken left)
    (deaf : ∀ event ∈ first, event.readsInput = false)
    (kept : table.afterAll first standardInput = table standardInput) :
    ∃ lost shared rest, taken = lost ++ rest ∧ unread = lost ++ shared ∧
      Stands (table.afterAll first) shared second rest left := by
  obtain ⟨lost, shared, rest, rfl, before, after⟩ := stands.fed.split
  have isOpen : table.afterAll first standardInput ≠ .nothing := kept ▸ stands.isOpen
  exact ⟨lost, shared, rest, rfl, before.eq_of_deaf deaf, stands.lawful.append.2, isOpen, after⟩

theorem ignoring (stands : Stands table unread (first ++ second) taken left)
    (run : Runs action first outcome) (ignores : action.Ignores standardInput post) :
    ∃ lost shared rest, taken = lost ++ rest ∧ unread = lost ++ shared ∧
      Stands (table.afterAll first) shared second rest left := by
  have lawful := stands.lawful.append.1
  have unnamed := run.ignored ignores lawful stands.isOpen
  apply stands.skip
  · intro event member
    apply Event.readsInput_of_unnamed
    rintro request reply rfl
    exact unnamed request reply member
  · exact run.keeps ignores.spares lawful stands.isOpen

theorem reading {turns : Nat} {outcome : Outcome (Except FileError (Option Word))}
    (stands : Stands table unread (first ++ second) taken left)
    (run : Runs (scriptLine turns) first outcome) :
    ∃ line shared, unread = line ++ shared ∧ Takes passedOn line shared first outcome ∧
      Stands (table.afterAll first) shared second taken left := by
  obtain ⟨lost, shared, rest, rfl, before, after⟩ := stands.fed.split
  obtain ⟨rfl, line, rfl, takes⟩ := takes_line run before
  have spares : (scriptLine turns).Spares standardInput fun _ => True :=
    (calls_scriptLine turns).spares (by rintro _ rfl; rfl)
  have kept := run.keeps spares stands.lawful.append.1 stands.isOpen
  have isOpen : table.afterAll first standardInput ≠ .nothing := kept ▸ stands.isOpen
  exact ⟨line, shared, rfl, takes, stands.lawful.append.2, isOpen, after⟩

theorem ended (stands : Stands table unread [] taken left) : taken = [] ∧ unread = left :=
  stands.fed.of_nil

end Stands

namespace Interpreter

variable {interpreter ready next last : Interpreter} {text : Word} {events : List Event}

structure Passed where
  line : List UInt8
  upshot : Upshot

inductive Reads (interpreter ready : Interpreter) :
    List UInt8 → List Event → List UInt8 → List UInt8 → List UInt8 → Prop
  | intro {lost line after : List UInt8} {reporting reading : List Event}
    (reports : Runs interpreter.reportFinishedJobs reporting (.value ready))
    (reads : ReadsLine line after reading) :
    Reads interpreter ready (lost ++ (line ++ after)) (reporting ++ reading) lost line after

/-- The turns of an interpreter over an unread input. The input stands right behind a line when the
line is executed; what is missing afterwards has been taken by other programs. -/
inductive Session : Interpreter → List UInt8 → List Event → List UInt8 → List Passed →
    Outcome Interpreter → List UInt8 → Prop
  | reporting {interpreter : Interpreter} {lost left : List UInt8} {events : List Event}
      {fate : Fate} (run : Runs interpreter.reportFinishedJobs events (.ended fate)) :
      Session interpreter (lost ++ left) events lost [] (.ended fate) left
  | reading {interpreter ready : Interpreter} {lost part left : List UInt8}
      {reporting reading : List Event}
      (reports : Runs interpreter.reportFinishedJobs reporting (.value ready))
      (run : Runs (scriptLine patience) reading (.ended .pending)) (inside : newline ∉ part) :
      Session interpreter (lost ++ (part ++ left)) (reporting ++ reading) lost []
        (.ended .pending) left
  | at_end {interpreter ready : Interpreter} {unread lost left : List UInt8} {events : List Event}
      (reads : Reads interpreter ready unread events lost [] left) :
      Session interpreter unread events lost [] (.value ready) left
  | unfinished {interpreter ready : Interpreter} {unread lost line taken left : List UInt8}
      {reading executing : List Event} {fate : Fate}
      (reads : Reads interpreter ready unread reading lost line (taken ++ left))
      (some : line ≠ [])
      (executes : Executes ready (Utf8.decodeLossy line) executing .unfinished (.ended fate)) :
      Session interpreter unread (reading ++ executing) (lost ++ taken) [⟨line, .unfinished⟩]
        (.ended fate) left
  | leaves {interpreter ready next : Interpreter} {unread lost line taken left : List UInt8}
      {reading executing : List Event} {upshot : Upshot}
      (reads : Reads interpreter ready unread reading lost line (taken ++ left))
      (some : line ≠ [])
      (executes : Executes ready (Utf8.decodeLossy line) executing upshot
        (.value (next, false))) :
      Session interpreter unread (reading ++ executing) (lost ++ taken) [⟨line, upshot⟩]
        (.value next) left
  | goes_on {interpreter ready next : Interpreter}
      {unread lost line taken unread' taken' left : List UInt8}
      {reading executing events : List Event} {upshot : Upshot} {lines : List Passed}
      {outcome : Outcome Interpreter}
      (reads : Reads interpreter ready unread reading lost line (taken ++ unread'))
      (some : line ≠ [])
      (executes : Executes ready (Utf8.decodeLossy line) executing upshot (.value (next, true)))
      (rest : Session next unread' events taken' lines outcome left) :
      Session interpreter unread (reading ++ (executing ++ events)) (lost ++ (taken ++ taken'))
        (⟨line, upshot⟩ :: lines) outcome left

theorem loop_turn_succ (turns : Nat) (interpreter : Interpreter) :
    loop (turn patience) (turns + 1) (interpreter, .script) =
      interpreter.reportFinishedJobs >>= fun ready => scriptLine patience >>= fun line =>
        match line with
        | .error error =>
          ready.settings.console.error ("error reading input: " ++ error.message) >>= fun _ =>
            done ready
        | .ok none => done ready
        | .ok (some text) => ready.execute text >>= fun (next, goesOn) =>
          if goesOn then loop (turn patience) turns (next, .script) else done next := by
  rw [loop_succ, turn]
  simp only [Source.isInteractive, Source.nextLine, Action.bind_assoc]
  congr 1
  funext ready
  simp only [Bool.false_eq_true, if_false, pure_eq, done_bind]
  rw [Action.bind_assoc]
  congr 1
  funext line
  rcases line with error | _ | text
  · rw [Action.bind_assoc]
    rfl
  · rfl
  · rw [Action.bind_assoc]
    congr 1
    funext ⟨next, goesOn⟩
    cases goesOn <;> rfl

variable {table : Table} {unread lost taken part left : List UInt8} {turns : Nat}
  {outcome : Outcome Interpreter} {reporting reading : List Event}

theorem stands_reported {rest : List Event}
    (reports : Runs interpreter.reportFinishedJobs reporting outcome)
    (stands : Stands table unread (reporting ++ rest) taken left) :
    ∃ lost shared more, taken = lost ++ more ∧ unread = lost ++ shared ∧
      Stands (table.afterAll reporting) shared rest more left :=
  stands.ignoring reports (interpreter.avoids_reportFinishedJobs (by decide) (by decide)).ignores

theorem stands_executed {executing rest : List Event} {outcome : Outcome (Interpreter × Bool)}
    (run : Runs (ready.execute text) executing outcome)
    (stands : Stands table unread (executing ++ rest) taken left) :
    ∃ lost shared more, taken = lost ++ more ∧ unread = lost ++ shared ∧
      Stands (table.afterAll executing) shared rest more left :=
  stands.ignoring run (ready.ignores_execute (by decide) (by decide) text)

/-! A run that stops before it does anything, or while it reports, reads or executes. -/

theorem session_of_nothing (interpreter : Interpreter) (unread : List UInt8) :
    Session interpreter unread [] [] [] (.ended .pending) unread := by
  obtain ⟨outcome, reports⟩ := exists_runs_nil interpreter.reportFinishedJobs
  cases outcome with
  | value ready =>
    exact @Session.reading interpreter ready [] [] unread [] [] reports runs_scriptLine_nil
      List.not_mem_nil
  | ended fate =>
    obtain rfl | ⟨-, cutOff⟩ := Lasting.cutOff (fun _ => lasting_reportFinishedJobs ..) reports
    · exact @Session.reporting interpreter [] unread [] _ reports
    · exact absurd cutOff not_cutOff_nil

theorem session_of_reporting {fate : Fate}
    (run : Runs interpreter.reportFinishedJobs reporting (.ended fate))
    (stands : Stands table unread reporting taken left) :
    Session interpreter unread reporting taken [] (.ended fate) left := by
  rw [← List.append_nil reporting] at stands
  obtain ⟨lost, shared, nobody, rfl, rfl, stopped⟩ := stands_reported run stands
  obtain ⟨rfl, rfl⟩ := stopped.ended
  rw [List.append_nil]
  exact .reporting run

theorem session_of_reading
    (reports : Runs interpreter.reportFinishedJobs reporting (.value ready))
    (run : Runs (scriptLine patience) reading (.ended .pending))
    (stands : Stands table unread reading taken left) :
    Session interpreter (lost ++ unread) (reporting ++ reading) (lost ++ taken) []
      (.ended .pending) left := by
  rw [← List.append_nil reading] at stands
  obtain ⟨part, shared, rfl, takes, stopped⟩ := stands.reading run
  obtain ⟨rfl, rfl⟩ := stopped.ended
  rw [List.append_nil]
  cases takes with
  | part inside => exact .reading reports run inside

theorem session_of_executing {line after : List UInt8} {executing : List Event} {fate : Fate}
    (reads : Reads interpreter ready unread reading lost line after) (some : line ≠ [])
    (run : Runs (ready.execute (Utf8.decodeLossy line)) executing (.ended fate))
    (stands : Stands table after executing taken left) :
    Session interpreter unread (reading ++ executing) (lost ++ taken) [⟨line, .unfinished⟩]
      (.ended fate) left := by
  rw [← List.append_nil executing] at stands
  obtain ⟨taken, left, nobody, rfl, rfl, stopped⟩ := stands_executed run stands
  obtain ⟨rfl, rfl⟩ := stopped.ended
  rw [List.append_nil]
  exact .unfinished reads some (.unfinished run)

theorem session_of_line {line after : List UInt8} {rest : List Event}
    (reads : Reads interpreter ready unread reading lost line after) (some : line ≠ [])
    (run : Runs (ready.execute (Utf8.decodeLossy line) >>= fun (next, goesOn) =>
      if goesOn then loop (turn patience) turns (next, .script) else done next) rest outcome)
    (stands : Stands table after rest taken left)
    (later : ∀ {next table unread events taken},
      Runs (loop (turn patience) turns (next, .script)) events outcome →
      Stands table unread events taken left →
      ∃ lines, Session next unread events taken lines outcome left) :
    ∃ lines, Session interpreter unread (reading ++ rest) (lost ++ taken) lines outcome left := by
  have contained := (ready.lasting_execute (Utf8.decodeLossy line)).contained
  rcases (Runs.bind_iff contained).1 run with
    ⟨executing, rest, ⟨next, goesOn⟩, rfl, executed, run_rest⟩ | ⟨fate, rfl, executed⟩
  swap
  · exact ⟨_, session_of_executing reads some executed stands⟩
  obtain ⟨taken, unread', others, rfl, rfl, reached⟩ := stands_executed executed stands
  obtain ⟨upshot, executes⟩ := runs_execute executed
  cases goesOn with
  | false =>
    obtain ⟨rfl, rfl⟩ := runs_done_iff.1 run_rest
    obtain ⟨rfl, rfl⟩ := reached.ended
    rw [List.append_nil, List.append_nil]
    exact ⟨_, .leaves reads some executes⟩
  | true =>
    obtain ⟨lines, session⟩ := later run_rest reached
    exact ⟨_, .goes_on reads some executes session⟩

/-! All runs are sessions. -/

theorem session_of_run
    (run : Runs (loop (turn patience) turns (interpreter, .script)) events outcome)
    (stands : Stands table unread events taken left) :
    ∃ lines, Session interpreter unread events taken lines outcome left := by
  induction turns generalizing interpreter table unread events taken with
  | zero =>
    cases run
    obtain ⟨rfl, rfl⟩ := stands.ended
    exact ⟨[], session_of_nothing interpreter unread⟩
  | succ turns ih =>
    rw [loop_turn_succ] at run
    rcases (Runs.bind_iff interpreter.contained_reportFinishedJobs).1 run with
      ⟨reporting, rest, ready, rfl, reports, run_line⟩ | ⟨fate, rfl, reports⟩
    swap
    · exact ⟨[], session_of_reporting reports stands⟩
    obtain ⟨lost, shared, others, rfl, rfl, reported⟩ := stands_reported reports stands
    rcases (Runs.bind_iff (steady_scriptLine _).contained).1 run_line with
      ⟨reading, rest, result, rfl, reads, run_text⟩ | ⟨fate, rfl, reads⟩
    swap
    · obtain rfl := reads.pending_of_steady (steady_scriptLine _)
      exact ⟨[], session_of_reading reports reads reported⟩
    obtain ⟨line, shared, rfl, takes, reached⟩ := reported.reading reads
    rw [← List.append_assoc reporting]
    cases takes with
    | whole takes_line same =>
      subst same
      have taken_off : Reads interpreter ready (lost ++ (line ++ shared)) (reporting ++ reading)
          lost line shared := .intro reports takes_line
      by_cases last : line = []
      · -- The input has ended.
        subst last
        obtain ⟨rfl, rfl⟩ := runs_done_iff.1 run_text
        obtain ⟨rfl, rfl⟩ := reached.ended
        rw [List.append_nil, List.append_nil]
        exact ⟨[], .at_end taken_off⟩
      · rw [passedOn, if_neg last] at run_text
        exact session_of_line taken_off last run_text reached ih

/-! All sessions are runs. -/

theorem Reads.runs_bind {α : Type} {line after : List UInt8} {rest : List Event}
    {outcome : Outcome α} {f : Interpreter → Except FileError (Option Word) → Action α}
    (reads : Reads interpreter ready unread events lost line after)
    (enough : events.length ≤ patience) (run : Runs (f ready (passedOn line)) rest outcome) :
    Runs (interpreter.reportFinishedJobs >>= fun ready => scriptLine patience >>= f ready)
      (events ++ rest) outcome := by
  cases reads with
  | @intro _ _ _ reporting reading reports reads =>
    rw [List.length_append] at enough
    rw [List.append_assoc]
    refine reports.bind interpreter.contained_reportFinishedJobs ?_
    exact (reads.runs (by omega)).bind (steady_scriptLine _).contained run

theorem Reads.length_pos {line after : List UInt8}
    (reads : Reads interpreter ready unread events lost line after) : 0 < events.length := by
  cases reads with
  | intro reports reads =>
    rw [List.length_append]
    exact Nat.lt_of_lt_of_le reads.length_pos (Nat.le_add_left ..)

theorem Session.run {lines : List Passed}
    (session : Session interpreter unread events taken lines outcome left)
    (enough : events.length < turns) (patient : turns ≤ patience) :
    Runs (loop (turn patience) turns (interpreter, .script)) events outcome := by
  induction session generalizing turns with
  | @reporting interpreter _ _ _ _ run =>
    obtain ⟨others, rfl⟩ := Nat.exists_eq_add_of_lt enough
    rw [loop_turn_succ]
    exact run.bind_ended _ interpreter.contained_reportFinishedJobs
  | @reading interpreter _ _ _ _ _ _ reports run =>
    obtain ⟨others, rfl⟩ := Nat.exists_eq_add_of_lt enough
    rw [loop_turn_succ]
    refine reports.bind interpreter.contained_reportFinishedJobs ?_
    exact run.bind_ended _ (steady_scriptLine _).contained
  | @at_end _ ready _ _ _ events reads =>
    have room : events.length ≤ patience := by omega
    obtain ⟨others, rfl⟩ := Nat.exists_eq_add_of_lt enough
    rw [loop_turn_succ, ← List.append_nil events]
    exact reads.runs_bind room (.done ready)
  | unfinished reads some executes =>
    rw [List.length_append] at enough
    obtain ⟨others, rfl⟩ := Nat.exists_eq_add_of_lt enough
    rw [loop_turn_succ]
    refine reads.runs_bind (by omega) ?_
    rw [passedOn, if_neg some]
    exact executes.run.bind_ended _ (lasting_execute ..).contained
  | @leaves _ _ next _ _ _ _ _ _ executing _ reads some executes =>
    rw [List.length_append] at enough
    obtain ⟨others, rfl⟩ := Nat.exists_eq_add_of_lt enough
    rw [loop_turn_succ, ← List.append_nil executing]
    refine reads.runs_bind (by omega) ?_
    rw [passedOn, if_neg some]
    exact executes.run.bind (lasting_execute ..).contained (.done next)
  | goes_on reads some executes rest ih =>
    have positive := reads.length_pos
    simp only [List.length_append] at enough
    obtain ⟨turns, rfl⟩ := Nat.exists_eq_add_of_lt (Nat.zero_lt_of_lt enough)
    rw [loop_turn_succ]
    refine reads.runs_bind (by omega) ?_
    rw [passedOn, if_neg some]
    exact executes.run.bind (lasting_execute ..).contained (ih (by omega) (by omega))

end Interpreter

end PipelineShell
