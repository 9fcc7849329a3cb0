import PipelineShell.Proofs.Interpreter.Consumption
import PipelineShell.Proofs.Interpreter.Terminal

namespace PipelineShell

open PipelineShell.Action PipelineShell.Input

theorem Stands.alone {α : Type} {table : Table} {unread left : List UInt8}
    {first second : List Event} {action : Action α} {outcome : Outcome α} {post : α → Prop}
    (stands : Stands table unread (first ++ second) [] left) (run : Runs action first outcome)
    (ignores : action.Ignores standardInput post) :
    Stands (table.afterAll first) unread second [] left := by
  obtain ⟨lost, shared, rest, nobody, rfl, stands⟩ := stands.ignoring run ignores
  obtain ⟨rfl, rfl⟩ := List.append_eq_nil_iff.1 nobody.symm
  exact stands

namespace Interpreter

variable {interpreter ready next : Interpreter} {source source' : Source} {table : Table}
  {events rest : List Event} {unread left : List UInt8} {turns : Nat}
  {outcome : Outcome Interpreter}

/-- The texts of the lines up to the first that asks to leave. A strict reader ends before the first
line that is ill-formed. -/
def textsOf (strict : Bool) (input : List UInt8) : List Word :=
  ((upToExit (pieces input)).takeWhile (legible strict)).map Utf8.decodeLossy

theorem textsOf_of_illegible {strict : Bool} {line after : List UInt8} (cuts : CutsOff line after)
    (some : line ≠ []) (illegible : legible strict line = false) :
    textsOf strict (line ++ after) = [] := by
  simp [textsOf, pieces_append cuts some, upToExit, illegible]

theorem textsOf_of_legible {strict : Bool} {line after : List UInt8} (cuts : CutsOff line after)
    (some : line ≠ []) (reads : legible strict line = true) :
    textsOf strict (line ++ after) = Utf8.decodeLossy line ::
      if asksToLeave (Utf8.decodeLossy line) then [] else textsOf strict after := by
  rw [textsOf, pieces_append cuts some, upToExit, List.takeWhile_cons_of_pos reads, List.map_cons]
  split <;> rfl

theorem textsOf_false (input : List UInt8) :
    textsOf false input = (upToExit (pieces input)).map Utf8.decodeLossy := by
  have all : (upToExit (pieces input)).takeWhile (legible false) = upToExit (pieces input) :=
    List.takeWhile_eq_self_iff.2 fun _ _ => rfl
  rw [textsOf, all]

theorem textsOf_true_prefix (input : List UInt8) : textsOf true input <+: textsOf false input := by
  rw [textsOf_false]
  exact (List.takeWhile_prefix _).map _

theorem textsOf_eq_iff (input : List UInt8) :
    textsOf true input = textsOf false input ↔
      ∀ line ∈ upToExit (pieces input), legible true line = true := by
  rw [textsOf_false, ← List.takeWhile_eq_self_iff]
  constructor
  · intro same
    have length := congrArg List.length same
    rw [textsOf, List.length_map, List.length_map] at length
    exact (List.takeWhile_prefix _).eq_of_length length
  · intro all
    rw [textsOf, all]

namespace Source

def ahead : Source → List UInt8
  | script => []
  | terminal buffer => buffer

def texts (source : Source) (unread : List UInt8) : List Word :=
  textsOf source.isInteractive (source.ahead ++ unread)

theorem steady_nextLine (source : Source) (turns : Nat) : (source.nextLine turns).Steady := by
  cases source with
  | script => exact (steady_scriptLine turns).bind fun _ => trivial
  | terminal buffer => exact (steady_terminalLine turns buffer).bind fun _ => trivial

theorem calls_nextLine (source : Source) (turns : Nat) :
    (source.nextLine turns).Calls fun request => ∃ count, request = .read standardInput count := by
  cases source with
  | script =>
    exact ((calls_scriptLine turns).mono fun _ reads => ⟨1, reads⟩).bind fun _ => trivial
  | terminal buffer =>
    exact ((calls_terminalLine turns buffer).mono fun _ reads => ⟨bufferSize, reads⟩).bind
      fun _ => trivial

theorem takes_nextLine {result : Except FileError (Option Word)}
    (run : Runs (source.nextLine turns) events (.value (result, source')))
    (fed : Fed unread events [] left) :
    source'.isInteractive = source.isInteractive ∧
      ∃ line, result = handedOn source.isInteractive line ∧
        CutsOff line (source'.ahead ++ left) ∧
        source.ahead ++ unread = line ++ (source'.ahead ++ left) := by
  cases source with
  | script =>
    obtain ⟨reading, returning, line, rfl, reads, returns⟩ :=
      (Runs.bind_value_iff (steady_scriptLine turns).contained).1 run
    obtain ⟨rfl, ⟨⟩⟩ := runs_done_iff.1 returns
    rw [List.append_nil] at fed
    obtain ⟨-, line, rfl, takes⟩ := takes_line reads fed
    cases takes with
    | whole reads same => exact ⟨rfl, line, same.trans (passedOn_eq line), reads.cuts, rfl⟩
  | terminal buffer =>
    obtain ⟨reading, returning, ⟨line, buffer'⟩, rfl, reads, returns⟩ :=
      (Runs.bind_value_iff (steady_terminalLine turns buffer).contained).1 run
    obtain ⟨rfl, ⟨⟩⟩ := runs_done_iff.1 returns
    rw [List.append_nil] at fed
    obtain ⟨-, line, same, cuts, whole⟩ := takes_terminalLine reads fed
    exact ⟨rfl, line, same, cuts, whole⟩

end Source

def promptFor (source : Source) (interpreter : Interpreter) : Action Unit :=
  if source.isInteractive then interpreter.writePrompt else done ()

def received (ready : Interpreter) : Except FileError (Option Word) × Source →
    Action (Interpreter × Option (Word × Source))
  | (.error error, _) => do
    ready.settings.console.error ("error reading input: " ++ error.message)
    return (ready, none)
  | (.ok none, _) => return (ready, none)
  | (.ok (some text), source) => return (ready, some (text, source))

def awaitText (state : Interpreter × Source) : Action (Interpreter × Option (Word × Source)) := do
  let ready ← state.1.reportFinishedJobs
  promptFor state.2 ready
  let line ← state.2.nextLine patience
  received ready line

def proceed : Interpreter × Option (Word × Source) →
    Action (Turn (Interpreter × Source) Interpreter)
  | (ready, none) => done (.leave ready)
  | (ready, some (text, source)) => ready.execute text >>= fun left =>
    done (if left.2 then .again (left.1, source) else .leave left.1)

theorem turn_eq (state : Interpreter × Source) :
    turn patience state = awaitText state >>= proceed := by
  obtain ⟨interpreter, source⟩ := state
  rw [turn, awaitText]
  simp only [Action.bind_assoc]
  congr 1
  funext ready
  have prompted (rest : Unit → Action (Turn (Interpreter × Source) Interpreter)) :
      (if source.isInteractive then ready.writePrompt >>= rest else rest ()) =
        promptFor source ready >>= rest := by
    unfold promptFor
    split <;> rfl
  refine (prompted _).trans ?_
  congr 1
  funext _
  congr 1
  funext result
  rcases result with ⟨error | _ | text, source⟩
  · rw [received, Action.bind_assoc]
    rfl
  · rfl
  · rfl

def proceedFor (turns : Nat) : Interpreter × Option (Word × Source) → Action Interpreter
  | (ready, none) => done ready
  | (ready, some (text, source)) => ready.execute text >>= fun left =>
    if left.2 then loop (turn patience) turns (left.1, source) else done left.1

theorem loop_turn (turns : Nat) (state : Interpreter × Source) :
    loop (turn patience) (turns + 1) state = awaitText state >>= proceedFor turns := by
  rw [loop_succ, turn_eq, Action.bind_assoc]
  congr 1
  funext awaited
  rcases awaited with ⟨ready, _ | ⟨text, source⟩⟩
  · rfl
  · rw [proceed, proceedFor, Action.bind_assoc]
    congr 1
    funext left
    obtain ⟨next, goesOn⟩ := left
    cases goesOn <;> rfl

theorem lasting_promptFor {room : Nat} (source : Source) (interpreter : Interpreter) :
    (promptFor source interpreter).Lasting room := by
  unfold promptFor
  split
  · refine (steady_perform rfl).lasting.bind fun _ _ _ => ?_
    exact (Console.lasting_print _).bind fun _ _ _ =>
      (steady_perform rfl).lasting.bind fun _ _ _ => lasting_done _
  · exact lasting_done _

theorem avoids_promptFor (source : Source) (interpreter : Interpreter) :
    (promptFor source interpreter).Avoids standardInput fun _ => True := by
  unfold promptFor
  split
  · refine avoids_perform_bind rfl fun _ _ => ?_
    exact (avoids_of_messages (by decide) (by decide) (Console.calls_print _)).bind fun _ _ =>
      avoids_perform_bind rfl fun _ _ => trivial
  · trivial

theorem lasting_received {room : Nat} (ready : Interpreter)
    (line : Except FileError (Option Word) × Source) : (received ready line).Lasting room := by
  rcases line with ⟨error | _ | text, source⟩
  · exact (Console.lasting_error ..).bind fun _ _ _ => lasting_done _
  · exact lasting_done _
  · exact lasting_done _

theorem lasting_awaitText {room : Nat} (state : Interpreter × Source) :
    (awaitText state).Lasting room :=
  (lasting_reportFinishedJobs _).bind fun _ _ _ => (lasting_promptFor ..).bind fun _ _ _ =>
    (Source.steady_nextLine ..).lasting.bind fun _ _ _ => lasting_received ..

theorem contained_promptFor (source : Source) (interpreter : Interpreter) :
    (promptFor source interpreter).Contained :=
  (@lasting_promptFor 0 source interpreter).contained

theorem contained_awaitText (state : Interpreter × Source) : (awaitText state).Contained :=
  (@lasting_awaitText 0 state).contained

theorem runs_awaitText_iff {result : Interpreter × Option (Word × Source)} :
    Runs (awaitText (interpreter, source)) events (.value result) ↔
      ∃ reporting prompting reading receiving ready line,
        events = reporting ++ (prompting ++ (reading ++ receiving)) ∧
        Runs interpreter.reportFinishedJobs reporting (.value ready) ∧
        Runs (promptFor source ready) prompting (.value ()) ∧
        Runs (source.nextLine patience) reading (.value line) ∧
        Runs (received ready line) receiving (.value result) := by
  constructor
  · intro run
    obtain ⟨reporting, _, ready, rfl, reports, run⟩ :=
      (Runs.bind_value_iff (contained_reportFinishedJobs _)).1 run
    obtain ⟨prompting, _, _, rfl, prompts, run⟩ :=
      (Runs.bind_value_iff (contained_promptFor ..)).1 run
    obtain ⟨reading, receiving, line, rfl, reads, receives⟩ :=
      (Runs.bind_value_iff (Source.steady_nextLine ..).contained).1 run
    exact ⟨reporting, prompting, reading, receiving, ready, line, rfl, reports, prompts, reads,
      receives⟩
  · rintro ⟨reporting, prompting, reading, receiving, ready, line, rfl, reports, prompts, reads,
      receives⟩
    refine reports.bind (contained_reportFinishedJobs _) ?_
    refine prompts.bind (contained_promptFor ..) ?_
    exact reads.bind (Source.steady_nextLine ..).contained receives

theorem awaits_line {found : Option (Word × Source)}
    (run : Runs (awaitText (interpreter, source)) events (.value (ready, found)))
    (stands : Stands table unread (events ++ rest) [] left) :
    ∃ line after receiving table' shared ready',
      Runs (received ready' (handedOn source.isInteractive line, after)) receiving
        (.value (ready, found)) ∧
      Stands table' shared (receiving ++ rest) [] left ∧
      after.isInteractive = source.isInteractive ∧ CutsOff line (after.ahead ++ shared) ∧
      source.ahead ++ unread = line ++ (after.ahead ++ shared) := by
  obtain ⟨reporting, prompting, reading, receiving, ready', ⟨result, after⟩, rfl, reports, prompts,
    reads, receives⟩ := runs_awaitText_iff.1 run
  simp only [List.append_assoc] at stands
  have stands := stands.alone reports
    (interpreter.avoids_reportFinishedJobs (by decide) (by decide)).ignores
  have stands := stands.alone prompts (avoids_promptFor source ready').ignores
  obtain ⟨nobody, shared, none, nothing, fed, fed_rest⟩ := stands.fed.split
  obtain ⟨rfl, rfl⟩ := List.append_eq_nil_iff.1 nothing.symm
  obtain ⟨same_kind, line, rfl, cuts, whole⟩ := Source.takes_nextLine reads fed
  have spares : (source.nextLine patience).Spares standardInput fun _ => True :=
    (source.calls_nextLine patience).spares (by rintro _ ⟨count, rfl⟩; rfl)
  have kept := reads.keeps spares stands.lawful.append.1 stands.isOpen
  exact ⟨line, after, receiving, _, shared, ready', receives,
    ⟨stands.lawful.append.2, kept ▸ stands.isOpen, fed_rest⟩, same_kind, cuts, whole⟩

theorem awaits_none (run : Runs (awaitText (interpreter, source)) events (.value (ready, none)))
    (stands : Stands table unread events [] left) : source.texts unread = [] := by
  rw [← List.append_nil events] at stands
  obtain ⟨line, after, receiving, _, shared, ready', receives, -, -, cuts, whole⟩ :=
    awaits_line run stands
  rw [Source.texts, whole]
  by_cases last : line = []
  · rw [cuts.at_end_iff.1 last]
    rfl
  · apply textsOf_of_illegible cuts last
    by_contra reads
    rw [Bool.not_eq_false] at reads
    rw [handedOn_of_legible last reads] at receives
    cases (runs_done_iff.1 receives).2

theorem awaits_some {text : Word}
    (run : Runs (awaitText (interpreter, source)) events (.value (ready, some (text, source'))))
    (stands : Stands table unread (events ++ rest) [] left) :
    ∃ table' shared, Stands table' shared rest [] left ∧ source.texts unread =
      text :: if asksToLeave text then [] else source'.texts shared := by
  obtain ⟨line, after, receiving, table', shared, ready', receives, stands, same_kind, cuts,
    whole⟩ := awaits_line run stands
  by_cases last : line = []
  · rw [handedOn, if_pos last] at receives
    cases (runs_done_iff.1 receives).2
  cases reads : legible source.isInteractive line with
  | false =>
    rw [handedOn_of_illegible last reads] at receives
    obtain ⟨_, _, _, -, -, returns⟩ :=
      (Runs.bind_value_iff (Console.contained_error ..)).1 receives
    cases (runs_done_iff.1 returns).2
  | true =>
    rw [handedOn_of_legible last reads] at receives
    obtain ⟨rfl, ⟨⟩⟩ := runs_done_iff.1 receives
    refine ⟨table', shared, stands, ?_⟩
    rw [Source.texts, whole, textsOf_of_legible cuts last reads, Source.texts, same_kind]

theorem awaits_length_pos {result : Interpreter × Option (Word × Source)}
    (run : Runs (awaitText (interpreter, source)) events (.value result)) : 0 < events.length := by
  rw [List.length_pos_iff]
  rintro rfl
  obtain ⟨reporting, prompting, reading, receiving, ready, line, nothing, -, prompts, reads, -⟩ :=
    runs_awaitText_iff.1 run
  simp only [List.nil_eq, List.append_eq_nil_iff] at nothing
  obtain ⟨-, rfl, rfl, -⟩ := nothing
  cases source with
  | terminal buffer =>
    rcases (runs_perform_bind_iff rfl).1 prompts with ⟨-, ⟨⟩⟩ | ⟨reply, later, more, -⟩
    exact List.cons_ne_nil _ _ more.symm
  | script =>
    obtain ⟨turns, patient⟩ := exists_patience
    rw [Source.nextLine, scriptLine_eq, patient, loop_readByte_succ, Action.bind_assoc,
      Action.bind_assoc] at reads
    rcases (runs_perform_bind_iff rfl).1 reads with ⟨-, ⟨⟩⟩ | ⟨reply, later, more, -⟩
    exact List.cons_ne_nil _ _ more.symm

end Interpreter

end PipelineShell
