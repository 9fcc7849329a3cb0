import PipelineShell.Proofs.Interpreter.Turn

namespace PipelineShell.Interpreter

open PipelineShell.Action PipelineShell.Input

variable {interpreter ready next : Interpreter} {source source' : Source}
  {state : Interpreter × Source} {table : Table} {events : List Event} {texts : List Word}
  {unread left : List UInt8} {turns : Nat} {outcome : Outcome Interpreter}

/-- The turns of an interpreter over a source, with the texts that it passes on to be executed. -/
inductive PassesOn : Interpreter × Source → List Event → List Word → Outcome Interpreter → Prop
  | stopped (state : Interpreter × Source) : PassesOn state [] [] (.ended .pending)
  | waiting {state : Interpreter × Source} {events : List Event} {fate : Fate}
      (awaits : Runs (awaitText state) events (.ended fate)) :
      PassesOn state events [] (.ended fate)
  | finished {state : Interpreter × Source} {ready : Interpreter} {events : List Event}
      (awaits : Runs (awaitText state) events (.value (ready, none))) :
      PassesOn state events [] (.value ready)
  | unfinished {state : Interpreter × Source} {ready : Interpreter} {text : Word} {source : Source}
      {awaiting executing : List Event} {fate : Fate}
      (awaits : Runs (awaitText state) awaiting (.value (ready, some (text, source))))
      (executes : Runs (ready.execute text) executing (.ended fate)) :
      PassesOn state (awaiting ++ executing) [text] (.ended fate)
  | leaves {state : Interpreter × Source} {ready next : Interpreter} {text : Word} {source : Source}
      {awaiting executing : List Event}
      (awaits : Runs (awaitText state) awaiting (.value (ready, some (text, source))))
      (executes : Runs (ready.execute text) executing (.value (next, false))) :
      PassesOn state (awaiting ++ executing) [text] (.value next)
  | goes_on {state : Interpreter × Source} {ready next : Interpreter} {text : Word}
      {source : Source} {awaiting executing events : List Event} {texts : List Word}
      {outcome : Outcome Interpreter}
      (awaits : Runs (awaitText state) awaiting (.value (ready, some (text, source))))
      (executes : Runs (ready.execute text) executing (.value (next, true)))
      (others : PassesOn (next, source) events texts outcome) :
      PassesOn state (awaiting ++ (executing ++ events)) (text :: texts) outcome

theorem passesOn_of_run (run : Runs (loop (turn patience) turns state) events outcome) :
    ∃ texts, PassesOn state events texts outcome := by
  induction turns generalizing state events with
  | zero =>
    cases run
    exact ⟨[], .stopped state⟩
  | succ turns ih =>
    rw [loop_turn] at run
    rcases (Runs.bind_iff (contained_awaitText state)).1 run with
      ⟨awaiting, rest, ⟨ready, found⟩, rfl, awaits, run⟩ | ⟨fate, rfl, awaits⟩
    swap
    · exact ⟨[], .waiting awaits⟩
    rcases found with _ | ⟨text, source⟩
    · obtain ⟨rfl, rfl⟩ := runs_done_iff.1 run
      rw [List.append_nil]
      exact ⟨[], .finished awaits⟩
    rcases (Runs.bind_iff (ready.lasting_execute text).contained).1 run with
      ⟨executing, rest, ⟨next, goesOn⟩, rfl, executes, run⟩ | ⟨fate, rfl, executes⟩
    swap
    · exact ⟨[text], .unfinished awaits executes⟩
    cases goesOn with
    | false =>
      obtain ⟨rfl, rfl⟩ := runs_done_iff.1 run
      rw [List.append_nil]
      exact ⟨[text], .leaves awaits executes⟩
    | true =>
      obtain ⟨texts, others⟩ := ih run
      exact ⟨text :: texts, .goes_on awaits executes others⟩

namespace PassesOn

theorem run (passes : PassesOn state events texts outcome) (enough : events.length < turns) :
    Runs (loop (turn patience) turns state) events outcome := by
  induction passes generalizing turns with
  | stopped state =>
    obtain ⟨others, rfl⟩ := Nat.exists_eq_add_of_lt enough
    obtain ⟨outcome, awaits⟩ := exists_runs_nil (awaitText state)
    rw [loop_turn]
    cases outcome with
    | value result => exact absurd (awaits_length_pos awaits) (Nat.lt_irrefl 0)
    | ended fate =>
      obtain rfl | ⟨-, cutOff⟩ := Lasting.cutOff (fun _ => lasting_awaitText state) awaits
      · exact awaits.bind_ended _ (contained_awaitText state)
      · exact absurd cutOff not_cutOff_nil
  | waiting awaits =>
    obtain ⟨others, rfl⟩ := Nat.exists_eq_add_of_lt enough
    rw [loop_turn]
    exact awaits.bind_ended _ (contained_awaitText _)
  | @finished _ ready events awaits =>
    obtain ⟨others, rfl⟩ := Nat.exists_eq_add_of_lt enough
    rw [loop_turn, ← List.append_nil events]
    exact awaits.bind (contained_awaitText _) (.done ready)
  | unfinished awaits executes =>
    obtain ⟨others, rfl⟩ := Nat.exists_eq_add_of_lt enough
    rw [loop_turn]
    refine awaits.bind (contained_awaitText _) ?_
    exact executes.bind_ended _ (lasting_execute ..).contained
  | @leaves _ _ next _ _ _ executing awaits executes =>
    obtain ⟨others, rfl⟩ := Nat.exists_eq_add_of_lt enough
    rw [loop_turn, ← List.append_nil executing]
    refine awaits.bind (contained_awaitText _) ?_
    exact executes.bind (lasting_execute ..).contained (.done next)
  | goes_on awaits executes others ih =>
    have positive := awaits_length_pos awaits
    simp only [List.length_append] at enough
    obtain ⟨turns, rfl⟩ := Nat.exists_eq_add_of_lt (Nat.zero_lt_of_lt enough)
    rw [loop_turn]
    refine awaits.bind (contained_awaitText _) ?_
    exact executes.bind (lasting_execute ..).contained (ih (by omega))

theorem asksToLeave_of_run {text : Word} {goesOn : Bool}
    (run : Runs (ready.execute text) events (.value (next, goesOn))) :
    asksToLeave text = !goesOn := by
  obtain ⟨upshot, executes⟩ := runs_execute run
  rw [executes.goesOn_eq, Bool.not_not]

theorem in_order (passes : PassesOn state events texts outcome)
    (stands : Stands table unread events [] left) :
    texts <+: state.2.texts unread ∧
      ∀ last, outcome = .value last → texts = state.2.texts unread := by
  induction passes generalizing table unread with
  | stopped | waiting => exact ⟨List.nil_prefix, nofun⟩
  | finished awaits =>
    rw [awaits_none awaits stands]
    exact ⟨List.prefix_rfl, fun _ _ => rfl⟩
  | unfinished awaits executes =>
    obtain ⟨_, shared, -, first⟩ := awaits_some awaits stands
    rw [first]
    exact ⟨List.cons_prefix_cons.2 ⟨rfl, List.nil_prefix⟩, nofun⟩
  | leaves awaits executes =>
    obtain ⟨_, shared, -, first⟩ := awaits_some awaits stands
    have asks : asksToLeave _ = true := asksToLeave_of_run executes
    rw [first, if_pos asks]
    exact ⟨List.prefix_rfl, fun _ _ => rfl⟩
  | @goes_on _ ready next text _ _ executing events _ _ awaits executes others ih =>
    obtain ⟨_, shared, stands, first⟩ := awaits_some awaits stands
    have stands := stands.alone executes (ready.ignores_execute (by decide) (by decide) text)
    obtain ⟨in_order, all⟩ := ih stands
    rw [first, if_neg (by simp [asksToLeave_of_run executes])]
    exact ⟨List.cons_prefix_cons.2 ⟨rfl, in_order⟩, fun last ended => by rw [all last ended]⟩

end PassesOn

def sourceOf (interactive : Bool) : Source := if interactive then .terminal [] else .script

theorem texts_sourceOf (interactive : Bool) (unread : List UInt8) :
    (sourceOf interactive).texts unread = textsOf interactive unread := by
  cases interactive <;> rfl

inductive WholeRun (interpreter : Interpreter) :
    Bool → List Event → List Word → Outcome Interpreter → Prop
  | opening {events : List Event} {fate : Fate} (interactive : Bool)
    (opens : Runs interpreter.opening events (.ended fate)) :
    WholeRun interpreter interactive events [] (.ended fate)
  | turns {answer : Except Errno Bool} {start turns : List Event} {texts : List Word}
    {outcome : Outcome Interpreter} (opens : Runs interpreter.opening start (.value answer))
    (passes : PassesOn (interpreter, sourceOf (answer.toOption.getD false)) turns texts outcome) :
    WholeRun interpreter (answer.toOption.getD false) (start ++ turns) texts outcome

theorem wholeRun_of_run (run : Runs interpreter.run events outcome) :
    ∃ interactive texts, WholeRun interpreter interactive events texts outcome := by
  rw [run_eq] at run
  rcases (Runs.bind_iff interpreter.contained_opening).1 run with
    ⟨start, turns, answer, rfl, opens, run_turns⟩ | ⟨fate, rfl, opens⟩
  · obtain ⟨texts, passes⟩ := passesOn_of_run run_turns
    exact ⟨_, texts, .turns opens passes⟩
  · exact ⟨false, [], .opening false opens⟩

namespace WholeRun

variable {interactive : Bool} {input : List UInt8}

theorem run (whole : WholeRun interpreter interactive events texts outcome)
    (enough : events.length < patience) : Runs interpreter.run events outcome := by
  rw [run_eq]
  have contained := interpreter.contained_opening
  cases whole with
  | opening _ opens => exact opens.bind_ended _ contained
  | turns opens passes =>
    rw [List.length_append] at enough
    exact opens.bind contained (passes.run (Nat.lt_of_le_of_lt (Nat.le_add_left ..) enough))

theorem in_order (whole : WholeRun interpreter interactive events texts outcome)
    (stands : Stands table input events [] left) :
    texts <+: textsOf interactive input ∧
      ∀ last, outcome = .value last → texts = textsOf interactive input := by
  cases whole with
  | opening => exact ⟨List.nil_prefix, nofun⟩
  | turns opens passes =>
    obtain ⟨lost, shared, more, nobody, rfl, stands⟩ := stands_opened opens stands
    obtain ⟨rfl, rfl⟩ := List.append_eq_nil_iff.1 nobody.symm
    rw [List.nil_append, ← texts_sourceOf]
    exact passes.in_order stands

end WholeRun

/-- However its input comes in, an interpreter that alone reads it passes on the lines up to the
first that asks to leave, over a script and at a terminal. At a terminal it ends before the first
line that is not well-formed UTF-8, and only there the two differ. -/
theorem passes_on_lines (interpreter : Interpreter) (table : Table) (input left : List UInt8)
    (events : List Event) (outcome : Outcome Interpreter)
    (stands : Stands table input events [] left) :
    (Runs interpreter.run events outcome →
      ∃ interactive texts, WholeRun interpreter interactive events texts outcome) ∧
    (∀ interactive texts, WholeRun interpreter interactive events texts outcome →
      (events.length < patience → Runs interpreter.run events outcome) ∧
      texts <+: textsOf interactive input ∧
      ∀ last, outcome = .value last → texts = textsOf interactive input) ∧
    textsOf false input = (upToExit (pieces input)).map Utf8.decodeLossy ∧
    textsOf true input <+: textsOf false input ∧
    (textsOf true input = textsOf false input ↔
      ∀ line ∈ upToExit (pieces input), (Utf8.decode? line).isSome = true) := by
  refine ⟨wholeRun_of_run, ?_, textsOf_false input, textsOf_true_prefix input, textsOf_eq_iff input⟩
  intro interactive texts whole
  exact ⟨whole.run, whole.in_order stands⟩

/-! A line `|` and a line `exit`, and the same with an ill-formed byte in the first. -/

def illFormedLine : List UInt8 := [0x7c, 0xff, newline]

def opened (interactive : Bool) : List Event :=
  [.answered (.setSignal Signal.interrupt.number true) (.ok ()),
    .answered (.isTerminal standardInput) (.ok interactive)]

def prompted (interpreter : Interpreter) : List Event :=
  [.answered .currentDirectory (.ok "/"), .answered (.print (interpreter.prompt "/")) (.ok ()),
    .answered .flush (.ok ())]

def chunk (bytes : List UInt8) : Event :=
  .answered (.read standardInput bufferSize) (.ok ⟨bytes.toArray⟩)

def refused : List Event := [.answered (.write standardError refusal) (.ok refusal.size)]

def unreadable : ByteArray :=
  (Console.errorText {} "error reading input: stream did not contain valid UTF-8").toUTF8

theorem runs_opening (interactive : Bool) :
    Runs interpreter.opening (opened interactive) (.value (.ok interactive)) :=
  .call _ rfl (.call _ rfl (.done _))

theorem runs_promptFor_terminal (buffer : List UInt8) :
    Runs (promptFor (.terminal buffer) interpreter) (prompted interpreter) (.value ()) :=
  .call _ rfl <| (Console.runs_print _).bind (Console.contained_print _) <|
    .call _ rfl (.done ())

theorem runs_nextLine_script {line after : List UInt8} (reads : ReadsLine line after events)
    (enough : events.length ≤ patience) :
    Runs (Source.script.nextLine patience) events (.value (handedOn false line, .script)) := by
  rw [← List.append_nil events, ← passedOn_eq]
  exact (reads.runs enough).bind (steady_scriptLine _).contained (.done _)

theorem runs_nextLine_terminal {buffer before after bytes : List UInt8}
    (started : newline ∉ buffer) (inside : newline ∉ before)
    (contents : bytes = before ++ newline :: after) :
    Runs ((Source.terminal buffer).nextLine patience) [chunk bytes]
      (.value (handedOn true (buffer ++ before ++ [newline]), .terminal after)) := by
  have reads := @runs_terminalLine buffer before after ⟨bytes.toArray⟩ started inside contents
  exact reads.bind (steady_terminalLine ..).contained (.done _)

theorem fed_chunk {bytes : List UInt8} (after : List UInt8) (fits : bytes.length ≤ bufferSize)
    (some : bytes.length ≠ 0) : Fed (bytes ++ after) [chunk bytes] [] after :=
  @Fed.read ⟨bytes.toArray⟩ _ _ _ _ _ fits (fun none => absurd none some) (.nil after)

theorem awaits_of_reads {text : Word} {prompting reading : List Event}
    (jobless : interpreter.jobs.jobs = [])
    (prompts : Runs (promptFor source interpreter) prompting (.value ()))
    (reads : Runs (source.nextLine patience) reading (.value (.ok (some text), source'))) :
    Runs (awaitText (interpreter, source)) (prompting ++ reading)
      (.value (interpreter, some (text, source'))) :=
  runs_awaitText_iff.2 ⟨[], prompting, reading, [], interpreter, _, by simp,
    runs_reportFinishedJobs_jobless jobless, prompts, reads, .done _⟩

def refusedBar : Interpreter := { user := "", lastStatus := 2 }

def typedRun : List Event :=
  opened true ++ (prompted { user := "" } ++ ([chunk (barLine ++ [0x65, 0x78])] ++
    (refused ++ (prompted refusedBar ++ ([chunk [0x69, 0x74, newline]] ++ [])))))

theorem wholeRun_typedRun : WholeRun { user := "" } true typedRun
    [Utf8.decodeLossy barLine, Utf8.decodeLossy exitLine] (.value shortRunLeft) := by
  have reads := @runs_nextLine_terminal [] [0x7c] [0x65, 0x78] _ (by decide) (by decide) rfl
  rw [handedOn_of_legible (by decide) (by decide +kernel)] at reads
  have reads' := @runs_nextLine_terminal [0x65, 0x78] [0x69, 0x74] [] _ (by decide) (by decide) rfl
  rw [handedOn_of_legible (by decide) (by decide +kernel)] at reads'
  have prompts := @runs_promptFor_terminal { user := "" } []
  have prompts' := @runs_promptFor_terminal refusedBar [0x65, 0x78]
  have refuses := @executes_refused (Utf8.decodeLossy barLine) (by decide +kernel)
  have second := PassesOn.leaves (awaits_of_reads rfl prompts' reads') executes_exitLine.run
  have first := PassesOn.goes_on (awaits_of_reads rfl prompts reads) refuses.run second
  exact WholeRun.turns (runs_opening true) first

theorem passes_on_lines_typed :
    Stands (Table.start (· ∈ [0, 1, 2])) (barLine ++ exitLine) typedRun [] [] ∧
      Runs (Interpreter.run { user := "" }) typedRun (.value shortRunLeft) ∧
      [Utf8.decodeLossy barLine, Utf8.decodeLossy exitLine] = textsOf true (barLine ++ exitLine) ∧
      textsOf true (barLine ++ exitLine) = textsOf false (barLine ++ exitLine) := by
  have only : Only (fun request => ∀ reply, request.gains reply = []) typedRun := by
    simp [typedRun, opened, prompted, chunk, refused, Call.gains]
  have lawful : Lawful (Table.start (· ∈ [0, 1, 2])) typedRun :=
    only.lawful fun _ giving => giving
  have typed : Fed (barLine ++ exitLine) typedRun [] [] := by
    have first := @fed_chunk (barLine ++ [0x65, 0x78]) [0x69, 0x74, newline] (by decide) (by decide)
    have second := @fed_chunk [0x69, 0x74, newline] [] (by decide) (by decide)
    exact (Fed.of_deaf _ (by decide)).append <| (Fed.of_deaf _ (by decide)).append <|
      first.append <| (Fed.of_deaf _ (by decide)).append <| (Fed.of_deaf _ (by decide)).append <|
      second.append (.nil [])
  have stands : Stands (Table.start (· ∈ [0, 1, 2])) (barLine ++ exitLine) typedRun [] [] :=
    ⟨lawful, by decide, typed⟩
  obtain ⟨-, passes, -, -, same⟩ :=
    passes_on_lines { user := "" } _ _ _ _ (.value shortRunLeft) stands
  obtain ⟨run, -, all⟩ := passes _ _ wholeRun_typedRun
  exact ⟨stands, run (by decide), all _ rfl, same.2 (by decide +kernel)⟩

def scriptRun : List Event :=
  opened false ++ (byteReads illFormedLine ++ (refused ++ byteReads exitLine))

def terminalRun : List Event :=
  opened true ++ (prompted { user := "" } ++ ([chunk (illFormedLine ++ exitLine)] ++
    [.answered (.write standardError unreadable) (.ok unreadable.size)]))

theorem readsLine_illFormedLine (after : List UInt8) :
    ReadsLine illFormedLine after (byteReads illFormedLine) :=
  .byte (by decide) (.byte (by decide) (.newline after))

theorem wholeRun_scriptRun : WholeRun { user := "" } false scriptRun
    [Utf8.decodeLossy illFormedLine, Utf8.decodeLossy exitLine] (.value shortRunLeft) := by
  have reads := runs_nextLine_script (readsLine_illFormedLine []) (by decide)
  rw [handedOn_of_legible (by decide) (by decide +kernel)] at reads
  have reads' := runs_nextLine_script (readsLine_exitLine []) (by decide)
  rw [handedOn_of_legible (by decide) (by decide +kernel)] at reads'
  have refuses := @executes_refused (Utf8.decodeLossy illFormedLine) (by decide +kernel)
  have awaits : Runs (awaitText ({ user := "" }, .script)) _ (.value (_, some (_, .script))) :=
    awaits_of_reads rfl (.done ()) reads
  have awaits' : Runs (awaitText (refusedBar, .script)) _ (.value (_, some (_, .script))) :=
    awaits_of_reads rfl (.done ()) reads'
  exact .turns (runs_opening false) (.goes_on awaits refuses.run
    (.leaves awaits' executes_exitLine.run))

theorem wholeRun_terminalRun :
    WholeRun { user := "" } true terminalRun [] (.value { user := "" }) := by
  have prompts := @runs_promptFor_terminal { user := "" } []
  have reads := @runs_nextLine_terminal [] [0x7c, 0xff] exitLine _ (by decide) (by decide) rfl
  rw [handedOn_of_illegible (by decide) (by decide +kernel)] at reads
  have tells : Runs (received { user := "" } (.error invalidText, .terminal exitLine)) _
      (.value ({ user := "" }, none)) :=
    (Console.runs_warn (by decide +kernel)).bind (Console.contained_error ..)
      (.done _)
  exact .turns (runs_opening true) (.finished (runs_awaitText_iff.2 ⟨[], _, _, _, _, _, rfl,
    runs_reportFinishedJobs_jobless rfl, prompts, reads, tells⟩))

/-- An ill-formed byte ends the loop at a terminal and not the one over a script. -/
theorem ends_at_ill_formed_line :
    Stands (Table.start (· ∈ [0, 1, 2])) (illFormedLine ++ exitLine) scriptRun [] [] ∧
      WholeRun { user := "" } false scriptRun
        [Utf8.decodeLossy illFormedLine, Utf8.decodeLossy exitLine] (.value shortRunLeft) ∧
      Runs (Interpreter.run { user := "" }) scriptRun (.value shortRunLeft) ∧
      Stands (Table.start (· ∈ [0, 1, 2])) (illFormedLine ++ exitLine) terminalRun [] [] ∧
      WholeRun { user := "" } true terminalRun [] (.value { user := "" }) ∧
      Runs (Interpreter.run { user := "" }) terminalRun (.value { user := "" }) := by
  have only : Only (fun request => ∀ reply, request.gains reply = []) scriptRun := by
    simp [scriptRun, opened, byteReads, illFormedLine, exitLine, refused, Call.gains]
  have only' : Only (fun request => ∀ reply, request.gains reply = []) terminalRun := by
    simp [terminalRun, opened, prompted, chunk, Call.gains]
  have fed : Fed (illFormedLine ++ exitLine) scriptRun [] [] :=
    (Fed.of_deaf _ (by decide)).append <| (readsLine_illFormedLine _).fed.append <|
      (Fed.of_deaf _ (by decide)).append (readsLine_exitLine _).fed
  have typed := @fed_chunk (illFormedLine ++ exitLine) [] (by decide) (by decide)
  have fed' : Fed (illFormedLine ++ exitLine) terminalRun [] [] :=
    (Fed.of_deaf _ (by decide)).append <| (Fed.of_deaf _ (by decide)).append <|
      typed.append (Fed.of_deaf _ (by decide))
  exact ⟨⟨only.lawful fun _ giving => giving, by decide, fed⟩, wholeRun_scriptRun,
    wholeRun_scriptRun.run (by decide), ⟨only'.lawful fun _ giving => giving, by decide, fed'⟩,
    wholeRun_terminalRun, wholeRun_terminalRun.run (by decide)⟩

end PipelineShell.Interpreter
