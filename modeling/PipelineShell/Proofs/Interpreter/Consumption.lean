import PipelineShell.Proofs.Interpreter.Session

namespace PipelineShell.Interpreter

open PipelineShell.Action PipelineShell.Input

variable {interpreter ready : Interpreter} {table : Table} {events : List Event}
  {unread lost taken left : List UInt8} {outcome : Outcome Interpreter}

def statusOf (initial : Nat) (lines : List Passed) : Nat :=
  (lines.filterMap (·.upshot.status?)).getLast?.getD initial

theorem statusOf_cons (initial : Nat) (first : Passed) (lines : List Passed) :
    statusOf initial (first :: lines) = statusOf (first.upshot.status?.getD initial) lines := by
  cases found : first.upshot.status? with
  | none => simp [statusOf, found]
  | some status => simp [statusOf, found, List.getLast?_cons]

theorem Reads.lastStatus_eq {line after : List UInt8}
    (reads : Reads interpreter ready unread events lost line after) :
    ready.lastStatus = interpreter.lastStatus := by
  cases reads with
  | intro reports => rw [(runs_reportFinishedJobs reports).1]

theorem Reads.room_eq {line after : List UInt8}
    (reads : Reads interpreter ready unread events lost line after) :
    ready.jobs.room = interpreter.jobs.room := by
  cases reads with
  | intro reports => exact (runs_reportFinishedJobs reports).2

namespace Session

variable {lines : List Passed}

theorem lastStatus_eq (session : Session interpreter unread events taken lines outcome left) :
    ∀ last, outcome = .value last → last.lastStatus = statusOf interpreter.lastStatus lines := by
  induction session with
  | reporting | reading | unfinished => exact nofun
  | at_end reads =>
    rintro _ ⟨⟩
    exact reads.lastStatus_eq
  | leaves reads _ executes =>
    rintro _ ⟨⟩
    rw [executes.lastStatus_eq, reads.lastStatus_eq, statusOf_cons]
    rfl
  | goes_on reads _ executes _ ih =>
    intro last ended
    rw [ih last ended, executes.lastStatus_eq, reads.lastStatus_eq, statusOf_cons]

theorem status_le (session : Session interpreter unread events taken lines outcome left)
    (fit : ExitCodesFit events) :
    ∀ passed ∈ lines, ∀ status ∈ passed.upshot.status?, status ≤ 255 := by
  induction session with
  | reporting | reading | at_end => exact nofun
  | unfinished _ _ executes | leaves _ _ executes =>
    intro passed member
    obtain rfl := List.mem_singleton.1 member
    exact executes.status_le (ExitCodesFit.append_iff.1 fit).2
  | goes_on _ _ executes _ ih =>
    simp only [ExitCodesFit.append_iff] at fit
    intro passed member
    rcases List.mem_cons.1 member with rfl | member
    · exact executes.status_le fit.2.1
    · exact ih fit.2.2 passed member

theorem gives_up (session : Session interpreter unread events taken lines outcome left) :
    ∀ fate, outcome = .ended fate → fate = .pending ∨
      fate = .exited panicStatus ∧ GivesUp interpreter.jobs.room events := by
  induction session with
  | reporting run =>
    rintro _ ⟨⟩
    exact (lasting_reportFinishedJobs _).ended run
  | reading =>
    rintro _ ⟨⟩
    exact .inl rfl
  | at_end | leaves => exact nofun
  | unfinished reads _ executes =>
    rintro _ ⟨⟩
    have room := reads.room_eq
    refine ((lasting_execute ..).ended executes.run).imp_right (And.imp_right fun givesUp => ?_)
    exact (givesUp.mono (by omega)).prepend
  | goes_on reads _ executes _ ih =>
    intro fate ended
    have room := reads.room_eq
    have used := executes.room_le
    refine (ih fate ended).imp_right (And.imp_right fun givesUp => ?_)
    exact GivesUp.prepend (GivesUp.prepend (givesUp.mono (by omega)))

end Session

theorem statusOf_le {lines : List Passed} {initial bound : Nat} (initial_le : initial ≤ bound)
    (each_le : ∀ passed ∈ lines, ∀ status ∈ passed.upshot.status?, status ≤ bound) :
    statusOf initial lines ≤ bound := by
  unfold statusOf
  cases found : (lines.filterMap (·.upshot.status?)).getLast? with
  | none => exact initial_le
  | some status =>
    obtain ⟨passed, member, same⟩ := List.mem_filterMap.1 (List.mem_of_getLast? found)
    exact each_le passed member status same

def upToExit : List (List UInt8) → List (List UInt8)
  | [] => []
  | line :: rest => line :: if asksToLeave (Utf8.decodeLossy line) then [] else upToExit rest

/-- The interpreter alone reads the input: it passes on the lines up to the first that asks to
leave, in order, and has read no more than these and a part of the next. -/
structure Consumes (input : List UInt8) (lines : List (List UInt8)) (outcome : Outcome Interpreter)
    (left : List UInt8) : Prop where
  in_order : lines <+: upToExit (pieces input)
  consumed : ∃ part, newline ∉ part ∧ input = lines.flatten ++ (part ++ left)
  complete : ∀ last, outcome = .value last →
    lines = upToExit (pieces input) ∧ input = lines.flatten ++ left ∧
      ((∀ line ∈ lines, asksToLeave (Utf8.decodeLossy line) = false) → left = [])

theorem Reads.first_piece {line after : List UInt8} (some : line ≠ [])
    (reads : Reads interpreter ready unread events lost line (taken ++ after))
    (alone : lost ++ taken = []) :
    unread = line ++ after ∧ pieces unread = line :: pieces after := by
  obtain ⟨rfl, rfl⟩ := List.append_eq_nil_iff.1 alone
  generalize same : [] ++ after = rest at reads
  cases reads with
  | intro reports reads =>
    subst same
    exact ⟨rfl, pieces_append reads.cuts some⟩

theorem upToExit_of_leaves {line : List UInt8} (rest : List (List UInt8))
    (leaves : asksToLeave (Utf8.decodeLossy line) = true) : upToExit (line :: rest) = [line] := by
  simp [upToExit, leaves]

theorem upToExit_of_stays {line : List UInt8} (rest : List (List UInt8))
    (stays : asksToLeave (Utf8.decodeLossy line) = false) :
    upToExit (line :: rest) = line :: upToExit rest := by
  simp [upToExit, stays]

namespace Consumes

theorem stopped {part : List UInt8} (inside : newline ∉ part) (left : List UInt8) (fate : Fate) :
    Consumes (part ++ left) [] (.ended fate) left :=
  ⟨List.nil_prefix, ⟨part, inside, rfl⟩, nofun⟩

theorem at_end (last : Interpreter) : Consumes [] [] (.value last) [] :=
  ⟨List.nil_prefix, ⟨[], by simp, rfl⟩, fun _ _ => ⟨rfl, rfl, fun _ => rfl⟩⟩

theorem unfinished {line : List UInt8} (first : pieces (line ++ left) = line :: pieces left)
    (fate : Fate) : Consumes (line ++ left) [line] (.ended fate) left := by
  have prefixed : [line] <+: upToExit (pieces (line ++ left)) := by
    rw [first]
    exact List.cons_prefix_cons.2 ⟨rfl, List.nil_prefix⟩
  exact ⟨prefixed, ⟨[], by simp, by simp⟩, nofun⟩

theorem leaves {line : List UInt8} (first : pieces (line ++ left) = line :: pieces left)
    (leaves : asksToLeave (Utf8.decodeLossy line) = true) (last : Interpreter) :
    Consumes (line ++ left) [line] (.value last) left := by
  have all : [line] = upToExit (pieces (line ++ left)) := by
    rw [first, upToExit_of_leaves _ leaves]
  have not_at_end (stays : ∀ each ∈ [line], asksToLeave (Utf8.decodeLossy each) = false) :
      left = [] := by
    simp [leaves] at stays
  exact ⟨all ▸ List.prefix_rfl, ⟨[], by simp, by simp⟩, fun _ _ => ⟨all, by simp, not_at_end⟩⟩

theorem goes_on {line : List UInt8} {lines : List (List UInt8)}
    (first : pieces (line ++ unread) = line :: pieces unread)
    (stays : asksToLeave (Utf8.decodeLossy line) = false)
    (rest : Consumes unread lines outcome left) :
    Consumes (line ++ unread) (line :: lines) outcome left := by
  obtain ⟨in_order, ⟨part, inside, consumed⟩, complete⟩ := rest
  have all : upToExit (pieces (line ++ unread)) = line :: upToExit (pieces unread) := by
    rw [first, upToExit_of_stays _ stays]
  refine ⟨?_, ⟨part, inside, by simp [consumed]⟩, ?_⟩
  · rw [all]
    exact List.cons_prefix_cons.2 ⟨rfl, in_order⟩
  · intro last ended
    obtain ⟨complete, unread_eq, at_end⟩ := complete last ended
    refine ⟨?_, by simp [unread_eq], ?_⟩
    · rw [all, ← complete]
    · intro stay
      exact at_end fun other member => stay other (List.mem_cons_of_mem _ member)

end Consumes

theorem Session.consumes {lines : List Passed}
    (session : Session interpreter unread events taken lines outcome left)
    (alone : taken = []) : Consumes unread (lines.map Passed.line) outcome left := by
  induction session with
  | reporting =>
    subst alone
    exact .stopped List.not_mem_nil _ _
  | reading _ _ inside =>
    subst alone
    exact .stopped inside _ _
  | at_end reads =>
    subst alone
    cases reads with
    | intro _ reads =>
      cases reads.cuts
      exact .at_end _
  | unfinished reads some =>
    obtain ⟨rfl, first⟩ := reads.first_piece some alone
    exact .unfinished first _
  | leaves reads some executes =>
    obtain ⟨rfl, first⟩ := reads.first_piece some alone
    exact .leaves first (by simpa using executes.goesOn_eq) _
  | goes_on reads some executes rest ih =>
    obtain ⟨nobody, rfl⟩ := List.append_eq_nil_iff.1 ((List.append_assoc ..).trans alone)
    obtain ⟨rfl, first⟩ := reads.first_piece some nobody
    exact .goes_on first (by simpa using executes.goesOn_eq) (ih rfl)

inductive IsOpening : Call → Prop
  | ignoreInterrupt : IsOpening (.setSignal Signal.interrupt.number true)
  | complain (part : ByteArray) : IsOpening (.write standardError part)
  | askForTerminal : IsOpening (.isTerminal standardInput)

def opening (interpreter : Interpreter) : Action (Except Errno Bool) := do
  match ← perform (.setSignal Signal.interrupt.number true) with
  | .ok () => pure ()
  | .error errno => interpreter.settings.console.error ("cannot ignore SIGINT: " ++ errno.text)
  perform (.isTerminal standardInput)

theorem run_eq (interpreter : Interpreter) :
    interpreter.run = interpreter.opening >>= fun interactive =>
      loop (turn patience) patience
        (interpreter, if interactive.toOption.getD false then .terminal [] else .script) := by
  rw [run, runFor, opening, Action.bind_assoc]
  congr 1
  funext reply
  cases reply with
  | ok _ => rfl
  | error errno => rw [Action.bind_assoc]

theorem lasting_opening {room : Nat} (interpreter : Interpreter) :
    interpreter.opening.Lasting room := by
  have asks {room : Nat} : (perform (.isTerminal standardInput)).Lasting room :=
    (steady_perform rfl).lasting
  refine (steady_perform rfl).lasting.bind fun _ reply _ => ?_
  cases reply with
  | ok _ => exact asks
  | error errno => exact (Console.lasting_error ..).bind fun _ _ _ => asks

theorem contained_opening (interpreter : Interpreter) : interpreter.opening.Contained :=
  (@lasting_opening 0 interpreter).contained

theorem calls_opening (interpreter : Interpreter) : interpreter.opening.Calls IsOpening := by
  have asks : (perform (.isTerminal standardInput)).Calls IsOpening :=
    calls_perform .askForTerminal rfl
  refine calls_perform_bind .ignoreInterrupt rfl fun reply => ?_
  cases reply with
  | ok _ => exact asks
  | error errno =>
    have complains := interpreter.settings.console.calls_error
      ("cannot ignore SIGINT: " ++ errno.text)
    refine (complains.mono ?_).bind fun _ => asks
    rintro _ ⟨part, rfl⟩
    exact .complain part

theorem answered_of_opening {interactive : Except Errno Bool}
    (opens : Runs interpreter.opening events (.value interactive)) :
    .answered (.isTerminal standardInput) interactive ∈ events := by
  have asked {asking : List Event}
      (asks : Runs (perform (.isTerminal standardInput)) asking (.value interactive)) :
      .answered (.isTerminal standardInput) interactive ∈ asking := by
    rcases (runs_call_iff rfl).1 asks with ⟨-, ⟨⟩⟩ | ⟨reply, rest, rfl, returns⟩
    cases (runs_done_iff.1 returns).2
    exact List.mem_cons_self
  rcases (runs_perform_bind_iff rfl).1 opens with ⟨-, ⟨⟩⟩ | ⟨reply, rest, rfl, goes_on⟩
  cases reply with
  | ok _ => exact List.mem_cons_of_mem _ (asked goes_on)
  | error errno =>
    obtain ⟨telling, asking, _, rfl, -, asks⟩ :=
      (Runs.bind_value_iff (Console.contained_error ..)).1 goes_on
    simp [asked asks]

theorem stands_opened {start rest : List Event} {outcome : Outcome (Except Errno Bool)}
    (opens : Runs interpreter.opening start outcome)
    (stands : Stands table unread (start ++ rest) taken left) :
    ∃ lost shared more, taken = lost ++ more ∧ unread = lost ++ shared ∧
      Stands (table.afterAll start) shared rest more left := by
  have only := opens.only interpreter.calls_opening
  apply stands.skip
  · intro event member
    obtain ⟨request, reply, rfl, ok⟩ := only event member
    cases ok <;> rfl
  · apply Table.afterAll_apply_of_only only
    rintro _ (_ | part | _)
    · exact ⟨rfl, fun _ => rfl⟩
    · exact ⟨rfl, fun _ => rfl⟩
    · exact ⟨rfl, fun _ => rfl⟩

theorem not_terminal {interactive : Except Errno Bool} (other : interactive ≠ .ok true) :
    interactive.toOption.getD false = false := by
  rcases interactive with errno | _ | _
  · rfl
  · rfl
  · exact absurd rfl other

inductive Script (interpreter : Interpreter) : List UInt8 → List Event → List UInt8 →
    List Passed → Outcome Interpreter → List UInt8 → Prop
  | opening {lost left : List UInt8} {events : List Event}
    {fate : Fate} (opens : Runs interpreter.opening events (.ended fate)) :
    Script interpreter (lost ++ left) events lost [] (.ended fate) left
  | turns {interactive : Except Errno Bool} {lost unread taken left : List UInt8}
    {start turns : List Event} {lines : List Passed} {outcome : Outcome Interpreter}
    (opens : Runs interpreter.opening start (.value interactive)) (script : interactive ≠ .ok true)
    (session : Session interpreter unread turns taken lines outcome left) :
    Script interpreter (lost ++ unread) (start ++ turns) (lost ++ taken) lines outcome left

theorem script_of_run (run : Runs interpreter.run events outcome)
    (stands : Stands table unread events taken left)
    (script : .answered (.isTerminal standardInput) (.ok true) ∉ events) :
    ∃ lines, Script interpreter unread events taken lines outcome left := by
  rw [run_eq] at run
  rcases (Runs.bind_iff interpreter.contained_opening).1 run with
    ⟨start, turns, interactive, rfl, opens, run_turns⟩ | ⟨fate, rfl, opens⟩
  · obtain ⟨lost, unread, taken, rfl, rfl, opened⟩ := stands_opened opens stands
    have other : interactive ≠ .ok true := by
      rintro rfl
      exact script (List.mem_append_left _ (answered_of_opening opens))
    rw [not_terminal other, if_neg Bool.false_ne_true] at run_turns
    obtain ⟨lines, session⟩ := session_of_run run_turns opened
    exact ⟨lines, .turns opens other session⟩
  · rw [← List.append_nil events] at stands
    obtain ⟨lost, shared, nobody, rfl, rfl, stopped⟩ := stands_opened opens stands
    obtain ⟨rfl, rfl⟩ := stopped.ended
    rw [List.append_nil]
    exact ⟨[], .opening opens⟩

namespace Script

variable {lines : List Passed}

theorem run (script : Script interpreter unread events taken lines outcome left)
    (enough : events.length < patience) : Runs interpreter.run events outcome := by
  rw [run_eq]
  cases script with
  | opening opens => exact opens.bind_ended _ interpreter.contained_opening
  | @turns interactive _ _ _ _ start turns _ _ opens other session =>
    rw [List.length_append] at enough
    refine opens.bind interpreter.contained_opening ?_
    rw [not_terminal other, if_neg Bool.false_ne_true]
    exact session.run (by omega) (Nat.le_refl patience)

theorem consumes (script : Script interpreter unread events taken lines outcome left)
    (alone : taken = []) : Consumes unread (lines.map Passed.line) outcome left := by
  cases script with
  | opening =>
    subst alone
    exact .stopped List.not_mem_nil _ _
  | turns _ _ session =>
    obtain ⟨rfl, rfl⟩ := List.append_eq_nil_iff.1 alone
    exact session.consumes rfl

theorem lastStatus (script : Script interpreter unread events taken lines outcome left)
    (fit : ExitCodesFit events) (initial_le : interpreter.lastStatus ≤ 255) :
    ∀ last, outcome = .value last →
      last.lastStatus = statusOf interpreter.lastStatus lines ∧ last.lastStatus ≤ 255 := by
  cases script with
  | opening => exact nofun
  | turns _ _ session =>
    intro last ended
    have each_le := session.status_le (ExitCodesFit.append_iff.1 fit).2
    rw [session.lastStatus_eq last ended]
    exact ⟨rfl, statusOf_le initial_le each_le⟩

theorem gives_up (script : Script interpreter unread events taken lines outcome left) :
    ∀ fate, outcome = .ended fate → fate = .pending ∨
      fate = .exited panicStatus ∧ GivesUp interpreter.jobs.room events := by
  cases script with
  | opening opens =>
    rintro _ ⟨⟩
    exact (lasting_opening _).ended opens
  | turns _ _ session =>
    intro fate ended
    refine (session.gives_up fate ended).imp_right (And.imp_right fun givesUp => ?_)
    exact (givesUp.mono (Nat.sub_le ..)).prepend

end Script

/-- An interpreter that reads a script takes exactly the lines off its input that it executes:
whatever the programs take that the lines start, the input stands right behind a line when the line
is executed. If they take nothing, the lines are those of the input up to the first that asks to
leave. The last line that left a status decides the status. Short of the end of the input and of a
line that asks to leave, the interpreter ends only if it gives up: because a message cannot be
written, or because there is no number left for a job. -/
theorem consumes_exactly (settings : Settings) (user : String) (table : Table)
    (input taken left : List UInt8) (events : List Event) (outcome : Outcome Interpreter)
    (lawful : Lawful table events) (isOpen : table standardInput ≠ .nothing)
    (script : .answered (.isTerminal standardInput) (.ok true) ∉ events)
    (fed : Fed input events taken left) (fit : ExitCodesFit events) :
    (Runs (Interpreter.run { settings, user }) events outcome →
      ∃ lines, Script { settings, user } input events taken lines outcome left) ∧
    ∀ lines, Script { settings, user } input events taken lines outcome left →
      (events.length < patience → Runs (Interpreter.run { settings, user }) events outcome) ∧
      (taken = [] → Consumes input (lines.map Passed.line) outcome left) ∧
      (∀ last, outcome = .value last →
        last.lastStatus = statusOf 0 lines ∧ last.lastStatus ≤ 255) ∧
      ∀ fate, outcome = .ended fate → fate = .pending ∨
        fate = .exited panicStatus ∧ GivesUp (JobTable.room {}) events := by
  refine ⟨fun run => script_of_run run ⟨lawful, isOpen, fed⟩ script, ?_⟩
  intro lines script
  exact ⟨script.run, script.consumes, script.lastStatus fit (Nat.zero_le 255), script.gives_up⟩

def barLine : List UInt8 := [0x7c, newline]

def exitLine : List UInt8 := [0x65, 0x78, 0x69, 0x74, newline]

def byteReads (bytes : List UInt8) : List Event :=
  bytes.map fun byte => .answered (.read standardInput 1) (.ok ⟨#[byte]⟩)

def refusal : ByteArray := (Console.errorText {} "syntax error: empty command near '|'").toUTF8

def shortRun : List Event :=
  [.answered (.setSignal Signal.interrupt.number true) (.ok ()),
    .answered (.isTerminal standardInput) (.ok false)] ++
  (byteReads [0x7c] ++ .answered (.read standardInput 1) (.error .interrupted) ::
    byteReads [newline] ++
  ([.answered (.write standardError refusal) (.ok refusal.size)] ++ (byteReads exitLine ++ [])))

def shortRunLeft : Interpreter :=
  { user := "", line := { flags := { exit := true } }, lastStatus := 2 }

theorem readsLine_barLine (after : List UInt8) :
    ReadsLine barLine after (byteReads [0x7c] ++
      .answered (.read standardInput 1) (.error .interrupted) :: byteReads [newline]) :=
  .byte (by decide) (.interrupted (.newline after))

theorem readsLine_exitLine (after : List UInt8) :
    ReadsLine exitLine after (byteReads exitLine) :=
  .byte (by decide) (.byte (by decide) (.byte (by decide) (.byte (by decide) (.newline after))))

theorem runs_reportFinishedJobs_jobless {interpreter : Interpreter}
    (jobless : interpreter.jobs.jobs = []) :
    Runs interpreter.reportFinishedJobs [] (.value interpreter) := by
  obtain ⟨settings, user, line, jobs, lastStatus⟩ := interpreter
  obtain ⟨_, nextId, ascending, below, inRange⟩ := jobs
  subst jobless
  exact .done _

theorem executes_exitLine :
    Executes { user := "", lastStatus := 2 } (Utf8.decodeLossy exitLine) [] .idle
      (.value (shortRunLeft, false)) := by
  have line : (Line.parse {} (Utf8.decodeLossy exitLine)) = ⟨⟨[], { exit := true }⟩, none⟩ := by
    decide +kernel
  have leaves : asksToLeave (Utf8.decodeLossy exitLine) = true := by simp [asksToLeave, line]
  have executes : Executes { user := "", lastStatus := 2 } (Utf8.decodeLossy exitLine) [] .idle _ :=
    .idle (by rw [line]) (by rw [line]) (.done ())
  rwa [leaves, line] at executes

theorem executes_refused {text : Word}
    (rejects : (Line.parse {} text).error? = some (.emptyCommand (some .pipe))) :
    Executes { user := "" } text [.answered (.write standardError refusal) (.ok refusal.size)]
      .rejected (.value ({ user := "", lastStatus := 2 }, true)) :=
  .rejected rejects (Console.runs_warn (by decide +kernel))

theorem script_shortRun : Script { user := "" } (barLine ++ (exitLine ++ [0x72])) shortRun []
    [⟨barLine, .rejected⟩, ⟨exitLine, .idle⟩] (.value shortRunLeft) [0x72] := by
  have opens : Runs (opening { user := "" })
      [.answered (.setSignal Signal.interrupt.number true) (.ok ()),
        .answered (.isTerminal standardInput) (.ok false)] (.value (.ok false)) :=
    .call _ rfl (.call _ rfl (.done _))
  have second : Session { user := "", lastStatus := 2 } (exitLine ++ [0x72])
      (byteReads exitLine ++ []) [] [⟨exitLine, .idle⟩] (.value shortRunLeft) [0x72] :=
    @Session.leaves _ _ _ _ [] _ [] _ _ _ _
      (@Reads.intro _ _ [] _ _ [] _ (runs_reportFinishedJobs_jobless rfl) (readsLine_exitLine _))
      (by decide) executes_exitLine
  have first := @Session.goes_on _ _ _ _ [] _ [] _ _ _ _ _ _ _ _ _
    (@Reads.intro _ _ [] _ _ [] _ (runs_reportFinishedJobs_jobless rfl) (readsLine_barLine _))
    (by decide) (executes_refused (by decide +kernel)) second
  exact @Script.turns _ _ [] _ _ _ _ _ _ _ opens (by simp) first

theorem consumes_exactly_refused_line :
    Lawful (Table.start (· ∈ [0, 1, 2])) shortRun ∧
      Fed (barLine ++ (exitLine ++ [0x72])) shortRun [] [0x72] ∧ ExitCodesFit shortRun ∧
      Runs (Interpreter.run { user := "" }) shortRun (.value shortRunLeft) ∧
      Consumes (barLine ++ (exitLine ++ [0x72])) [barLine, exitLine] (.value shortRunLeft) [0x72] ∧
      2 = statusOf 0 [⟨barLine, .rejected⟩, ⟨exitLine, .idle⟩] := by
  have only : Only (fun request => ∀ reply, request.gains reply = []) shortRun := by
    simp [shortRun, byteReads, exitLine, Call.gains]
  have lawful : Lawful (Table.start (· ∈ [0, 1, 2])) shortRun := only.lawful fun _ giving => giving
  have fed : Fed (barLine ++ (exitLine ++ [0x72])) shortRun [] [0x72] :=
    (Fed.of_deaf _ (by decide)).append <| (readsLine_barLine _).fed.append <|
      (Fed.of_deaf _ (by decide)).append <| (readsLine_exitLine _).fed.append (.nil _)
  have script : .answered (.isTerminal standardInput) (.ok true) ∉ shortRun := by
    simp [shortRun, byteReads]
  have fit : ExitCodesFit shortRun := by
    simp [ExitCodesFit, shortRun, byteReads]
  obtain ⟨run, consumes, status, -⟩ := (consumes_exactly {} "" _ _ _ _ _ _ lawful (by decide) script
    fed fit).2 _ script_shortRun
  exact ⟨lawful, fed, fit, run (by decide), consumes rfl, (status _ rfl).1⟩

end PipelineShell.Interpreter
