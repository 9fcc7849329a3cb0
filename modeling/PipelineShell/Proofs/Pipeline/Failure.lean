import Mathlib
import PipelineShell.Proofs.Pipeline.Stage

namespace PipelineShell

open PipelineShell.Action

variable {events : List Event} {input output : Descriptor} {table base : Table}
  {scheduling : Scheduling} {flags : Flags}

/-! ## The message -/

def announcements (events : List Event) : List Descriptor :=
  ((writes events).filter (·.2 = commandNotFound.toUTF8)).map Prod.fst

@[simp] theorem announcements_append (first second : List Event) :
    announcements (first ++ second) = announcements first ++ announcements second := by
  simp [announcements]

theorem announcements_of_short (short : ∀ write ∈ writes events, write.2.size ≤ 4) :
    announcements events = [] := by
  -- The message is longer than a report.
  have longer : commandNotFound.toUTF8.size = 26 := rfl
  simp only [announcements, List.map_eq_nil_iff, List.filter_eq_nil_iff, decide_eq_true_eq]
  intro write member same
  have := short write member
  rw [same, longer] at this
  omega

theorem announcements_of_only {allowed : Call → Prop} (only : Only allowed events)
    (silent : ∀ descriptor data, ¬ allowed (.write descriptor data)) :
    announcements events = [] := by
  simp [announcements, only.writes_eq silent]

theorem announcements_of_closes {descriptors : List Descriptor}
    (only : Only (IsClose descriptors) events) : announcements events = [] :=
  announcements_of_only only (by simp [IsClose])

/-- The system lets a process save its standard output and put it back. -/
structure Restores (events : List Event) : Prop where
  saves : ∀ errno, .answered (.duplicateFrom standardOutput 3) (.error errno) ∉ events
  puts_back : ∀ before copy after,
    events = before ++ .answered (.duplicateFrom standardOutput 3) (.ok copy) :: after →
      ∀ errno, .answered (.duplicateTo copy standardOutput) (.error errno) ∉ after

/-- The message is written once, on standard output, which then refers to what it did in `table`,
and does so in the end. -/
structure Announces (assuming : Prop) (table : Table) (events : List Event) : Prop where
  once : announcements events = [standardOutput]
  original : assuming → table.afterAll events standardOutput = table standardOutput ∧
    ∃ before reply after,
      events = before ++
        .answered (.write standardOutput commandNotFound.toUTF8) reply :: after ∧
      table.afterAll before standardOutput = table standardOutput

namespace Restores

variable {first second : List Event}

theorem left (restores : Restores (first ++ second)) : Restores first := by
  refine ⟨fun errno member => restores.saves errno (List.mem_append_left _ member), ?_⟩
  rintro before copy after rfl errno member
  exact restores.puts_back before copy (after ++ second) (by simp) errno
    (List.mem_append_left _ member)

theorem right (restores : Restores (first ++ second)) : Restores second := by
  refine ⟨fun errno member => restores.saves errno (List.mem_append_right _ member), ?_⟩
  rintro before copy after rfl errno member
  exact restores.puts_back (first ++ before) copy after (by simp) errno member

end Restores

namespace Announces

variable {assuming : Prop}

theorem write (table : Table) (reply : Except Errno Nat) :
    Announces assuming table
      [.answered (.write standardOutput commandNotFound.toUTF8) reply] :=
  ⟨by simp [announcements], fun _ => ⟨rfl, [], reply, [], rfl, rfl⟩⟩

theorem mono {stronger : Prop} (announces : Announces assuming table events)
    (h : stronger → assuming) : Announces stronger table events :=
  ⟨announces.once, fun assumed => announces.original (h assumed)⟩

theorem append {after : List Event} (announces : Announces assuming table events)
    (silent : announcements after = [])
    (kept : ∀ table : Table, table.afterAll after standardOutput = table standardOutput) :
    Announces assuming table (events ++ after) := by
  refine ⟨by simp [announces.once, silent], fun assumed => ?_⟩
  obtain ⟨finally_kept, before, reply, between, rfl, then_kept⟩ := announces.original assumed
  refine ⟨?_, before, reply, between ++ after, by simp, then_kept⟩
  rw [Table.afterAll_append, kept, finally_kept]

theorem prepend {before : List Event}
    (announces : Announces assuming (table.afterAll before) events)
    (silent : announcements before = [])
    (kept : assuming → table.afterAll before standardOutput = table standardOutput) :
    Announces assuming table (before ++ events) := by
  refine ⟨by simp [announces.once, silent], fun assumed => ?_⟩
  obtain ⟨finally_kept, between, reply, after, rfl, then_kept⟩ := announces.original assumed
  refine ⟨?_, before ++ between, reply, after, by simp, ?_⟩
  · rw [Table.afterAll_append, finally_kept, kept assumed]
  · rw [Table.afterAll_append, then_kept, kept assumed]

end Announces

/-! ## The last stage -/

inductive LastFault (stage : Stage) (input output : Descriptor) (events : List Event) :
    RunError → Prop
  | unusable {error : RunError} (h : stage.Unusable error) :
    LastFault stage input output events error
  | refused {program : Word} {arguments : List String} {errno : Errno}
    (asks : stage.Asks program arguments) (refused : Refused input output events errno) :
    LastFault stage input output events (.exec program errno)

theorem LastFault.append {stage : Stage} {error : RunError}
    (fault : LastFault stage input output events error) (after : List Event) :
    LastFault stage input output (events ++ after) error := by
  cases fault with
  | unusable h => exact .unusable h
  | refused asks refused => exact .refused asks (refused.append_right after)

theorem IsStart.rebinds_eq {request : Call} (start : IsStart input output request)
    {descriptor : Descriptor} (above : 3 ≤ descriptor) : request.rebinds descriptor = false := by
  have apart : ∀ standard < 3, standard ≠ descriptor := fun standard below =>
    Nat.ne_of_lt (Nat.lt_of_lt_of_le below above)
  cases start with
  | input => exact beq_eq_false_iff_ne.2 (apart standardInput (by decide))
  | output => exact beq_eq_false_iff_ne.2 (apart standardOutput (by decide))
  | signal | exec => rfl

theorem IsStart.gains_eq {request : Call} (start : IsStart input output request)
    (reply : request.Reply) : request.gains reply = [] := by
  cases start <;> rfl

inductive GivesBack (events : List Event) (errno : Errno) : Outcome Errno → Prop
  | returned : GivesBack events errno (.value errno)
  | unread (reset : .answered (.setSignal Signal.brokenPipe.number false) (.ok ()) ∈ events)
    (last : events.getLast? =
      some (.answered (.write standardOutput commandNotFound.toUTF8) (.error .brokenPipe))) :
    GivesBack events errno (.ended (.killed Signal.brokenPipe.number))

/-- How standard output is put back from the answer to the attempt to save it. -/
inductive PutsBack : Except Errno Descriptor → List Event → Prop
  | unsaved (errno : Errno) : PutsBack (.error errno) []
  | saved (copy : Descriptor) (restored closed : Except Errno Unit) :
    PutsBack (.ok copy) [.answered (.duplicateTo copy standardOutput) restored,
      .answered (.close copy) closed]

theorem execInPlace_parts {plan : ExecPlan} {outcome : Outcome Errno}
    (run : Runs (execInPlace plan input output) events outcome)
    (complete : outcome ≠ .ended .pending) :
    ∃ saved starting rest,
      events = .answered (.duplicateFrom standardOutput 3) saved :: (starting ++ rest) ∧
        Only (IsStart input output) starting ∧
        ((outcome = .ended (.replaced plan.program.toString plan.arguments) ∧ rest = []) ∨
          ∃ errno putting_back reply, GivesBack events errno outcome ∧
            Refused input output starting errno ∧ PutsBack saved putting_back ∧
            rest = putting_back ++
              [.answered (.write standardOutput commandNotFound.toUTF8) reply]) := by
  rcases (runs_perform_bind_iff rfl).1 run with ⟨-, rfl⟩ | ⟨saved, after, rfl, starts⟩
  · exact absurd rfl complete
  refine ⟨saved, ?_⟩
  rcases (Runs.bind_iff (plan.contained_execWith ..)).1 starts with
    ⟨starting, rest, failure, rfl, execs, restores⟩ | ⟨_, rfl, execs⟩
  · have only := execs.only plan.calls_execWith
    cases ExecPlan.runs_execWith execs with
    | refused refused reset =>
      refine ⟨starting, rest, rfl, only, .inr ?_⟩
      -- Whatever is put back, the message comes last, and may be the end of the process.
      have gives_back {before telling : List Event}
          (tells : Runs (announceNotFound failure.mortal >>= fun _ => pure failure.errno) telling
            outcome) :
          ∃ reply, telling = [.answered (.write standardOutput commandNotFound.toUTF8) reply] ∧
            GivesBack (.answered (.duplicateFrom standardOutput 3) saved ::
              (starting ++ (before ++ telling))) failure.errno outcome := by
        obtain ⟨reply, _, rfl, returns | ⟨mortal, rfl, rfl, rfl⟩⟩ := runs_announce_bind tells complete
        · obtain ⟨rfl, rfl⟩ := runs_done_iff.1 returns
          exact ⟨reply, rfl, .returned⟩
        · exact ⟨_, rfl, .unread (by simp [reset mortal]) (by simp [List.getLast?_cons])⟩
      rcases saved with unsaved | copy
      · obtain ⟨reply, rfl, result⟩ := @gives_back [] _ restores
        exact ⟨failure.errno, [], reply, result, refused, .unsaved unsaved, rfl⟩
      · rcases (runs_perform_bind_iff rfl).1 restores with ⟨-, rfl⟩ | ⟨restored, _, rfl, closes⟩
        · exact absurd rfl complete
        rcases (runs_call_iff rfl).1 closes with ⟨-, rfl⟩ | ⟨closed, _, rfl, announces⟩
        · exact absurd rfl complete
        obtain ⟨reply, rfl, result⟩ := @gives_back [_, _] _ announces
        exact ⟨failure.errno, _, reply, result, refused, .saved copy restored closed, rfl⟩
  · have only := execs.only plan.calls_execWith
    refine ⟨after, [], by simp, only, .inl ⟨?_, rfl⟩⟩
    cases ExecPlan.runs_execWith execs with
    | pending => exact absurd rfl complete
    | replaced => rfl

section

variable {copy : Descriptor} {starting : List Event} {closed : Except Errno Unit}

theorem copy_above
    (lawful : (Event.answered (.duplicateFrom standardOutput 3) (.ok copy)).Lawful table) :
    3 ≤ copy ∧ standardOutput ≠ copy := by
  have above : 3 ≤ copy := (lawful.2 copy (by simp [Call.gains])).2
  exact ⟨above, Nat.ne_of_lt (Nat.lt_of_lt_of_le (by decide) above)⟩

theorem standardOutput_put_back
    (lawful : (Event.answered (.duplicateFrom standardOutput 3) (.ok copy)).Lawful table)
    (only : Only (IsStart input output) starting) :
    table.afterAll (.answered (.duplicateFrom standardOutput 3) (.ok copy) :: (starting ++
      [.answered (.duplicateTo copy standardOutput) (.ok ()), .answered (.close copy) closed]))
        standardOutput = table standardOutput := by
  obtain ⟨above, apart⟩ := copy_above lawful
  -- The copy lies above the standard descriptors, and a start of a program rebinds only those.
  have stays := Table.afterAll_apply_of_only only (fun _ start =>
    ⟨start.rebinds_eq above, start.gains_eq⟩)
      (table.after (.answered (.duplicateFrom standardOutput 3) (.ok copy)))
  calc _ = ((table.after (.answered (.duplicateFrom standardOutput 3) (.ok copy))).afterAll
        starting) copy := by simp [Table.after, apart]
    _ = table standardOutput := by rw [stays]; simp [Table.after]

theorem standardOutput_untouched {saved : Except Errno Descriptor}
    (lawful : (Event.answered (.duplicateFrom standardOutput 3) saved).Lawful table)
    (only : Only (IsStart input standardOutput) starting) :
    table.afterAll (.answered (.duplicateFrom standardOutput 3) saved :: starting)
      standardOutput = table standardOutput := by
  have ungiven : standardOutput ∉ (Call.duplicateFrom standardOutput 3).gains saved := fun member =>
    absurd (lawful.2 _ member).2 (by decide)
  have stays : ∀ table : Table, table.afterAll starting standardOutput = table standardOutput :=
    Table.afterAll_apply_of_only only fun _ start =>
      ⟨by cases start <;> first | rfl | contradiction, start.gains_eq⟩
  rw [Table.afterAll_cons, stays, Table.after_apply rfl ungiven]

theorem PutsBack.standardOutput_eq {saved : Except Errno Descriptor} {putting_back : List Event}
    (back : PutsBack saved putting_back)
    (lawful : (Event.answered (.duplicateFrom standardOutput 3) saved).Lawful table)
    (only : Only (IsStart input output) starting)
    (kept : output = standardOutput ∨ Restores
      (.answered (.duplicateFrom standardOutput 3) saved :: (starting ++ putting_back))) :
    table.afterAll (.answered (.duplicateFrom standardOutput 3) saved ::
      (starting ++ putting_back)) standardOutput = table standardOutput := by
  cases back with
  | unsaved errno =>
    rcases kept with rfl | restores
    · simpa using standardOutput_untouched lawful only
    · exact absurd (.head _) (restores.saves errno)
  | saved copy restored closed =>
    cases restored with
    | ok _ => exact standardOutput_put_back lawful only
    | error failed =>
      rcases kept with rfl | restores
      · have apart := (copy_above lawful).2
        have untouched := standardOutput_untouched lawful only
        rw [← List.cons_append, Table.afterAll_append, ← untouched]
        simp [Table.after, apart]
      · exact absurd (by simp) (restores.puts_back [] copy _ rfl failed)

end

theorem execInPlace_cases {plan : ExecPlan} {outcome : Outcome Errno}
    (run : Runs (execInPlace plan input output) events outcome)
    (complete : outcome ≠ .ended .pending) (lawful : Lawful table events) :
    children events = [] ∧
      ((outcome = .ended (.replaced plan.program.toString plan.arguments) ∧
          announcements events = []) ∨
        ∃ errno, GivesBack events errno outcome ∧ Refused input output events errno ∧
          Announces (output = standardOutput ∨ Restores events) table events) := by
  obtain ⟨saved, starting, rest, rfl, only, ⟨rfl, rfl⟩ |
    ⟨errno, putting_back, reply, result, refused, back, rfl⟩⟩ := execInPlace_parts run complete
  · have silent : announcements starting = [] := announcements_of_only only nofun
    refine ⟨by simp [only.children_eq], .inl ⟨rfl, ?_⟩⟩
    simpa [announcements, writes_answered] using silent
  · -- Nothing but the message itself is written.
    have silent : Only (fun request => ∀ descriptor data, request ≠ .write descriptor data)
        (.answered (.duplicateFrom standardOutput 3) saved :: (starting ++ putting_back)) := by
      refine only_answered.2 ⟨nofun, only_append.2 ⟨only.mono ?_, ?_⟩⟩
      · rintro _ start descriptor data rfl
        cases start
      · cases back <;> simp
    rw [← List.append_assoc, ← List.cons_append] at lawful result ⊢
    refine ⟨?_, .inr ⟨errno, result, ((refused.append_right _).append_left [_]).append_right _, ?_⟩⟩
    · rw [children_append, silent.children_eq]
      rfl
    · refine (Announces.write _ reply).prepend (announcements_of_only silent ?_) fun kept => ?_
      · exact fun descriptor data other => other descriptor data rfl
      · exact back.standardOutput_eq lawful.1 only (kept.imp_right Restores.left)

inductive LastResult (stage : Stage) (input output : Descriptor) (table : Table)
    (events : List Event) : Outcome RunError → Prop
  | replaced {program : Word} {arguments : List String} (asks : stage.Asks program arguments)
    (silent : announcements events = []) :
    LastResult stage input output table events (.ended (.replaced program.toString arguments))
  | failed {error : RunError} (fault : LastFault stage input output events error)
    (announces : Announces (output = standardOutput ∨ Restores events) table events) :
    LastResult stage input output table events (.value error)
  | unread {error : RunError} (fault : LastFault stage input output events error)
    (announces : Announces (output = standardOutput ∨ Restores events) table events)
    (reset : .answered (.setSignal Signal.brokenPipe.number false) (.ok ()) ∈ events)
    (last : events.getLast? =
      some (.answered (.write standardOutput commandNotFound.toUTF8) (.error .brokenPipe))) :
    LastResult stage input output table events (.ended (.killed Signal.brokenPipe.number))

theorem Pipeline.becomeLast_cases {pipeline : Pipeline} {outcome : Outcome RunError}
    (run : Runs (pipeline.becomeLast input output) events outcome)
    (complete : outcome ≠ .ended .pending) (lawful : Lawful table events) :
    children events = [] ∧ LastResult pipeline.last input output table events outcome := by
  unfold becomeLast at run
  cases planned : ExecPlan.ofStage pipeline.last with
  | error error =>
    rw [planned] at run
    obtain ⟨reply, _, rfl, returns⟩ := runs_announce_immortal_bind run complete
    obtain ⟨rfl, rfl⟩ := runs_done_iff.1 returns
    exact ⟨rfl, .failed (.unusable (ExecPlan.ofStage_error planned)) (.write table reply)⟩
  | ok plan =>
    rw [planned] at run
    have asks := ExecPlan.ofStage_ok planned
    rcases (Runs.bind_iff (contained_execInPlace ..)).1 run with
      ⟨first, _, errno, rfl, execs, returns⟩ | ⟨fate, rfl, execs⟩
    · obtain ⟨rfl, rfl⟩ := runs_done_iff.1 returns
      rw [List.append_nil] at lawful ⊢
      obtain ⟨childless, ⟨⟨⟩, -⟩ | ⟨_, ⟨⟩, refused, announces⟩⟩ :=
        execInPlace_cases execs nofun lawful
      exact ⟨childless, .failed (.refused asks refused) announces⟩
    · obtain ⟨childless, ⟨⟨⟩, silent⟩ | ⟨_, result, refused, announces⟩⟩ :=
        execInPlace_cases execs (fun same => complete (by cases same; rfl)) lawful
      · exact ⟨childless, .replaced asks silent⟩
      · cases result with
        | unread reset last =>
          exact ⟨childless, .unread (.refused asks refused) announces reset last⟩

/-! ## The earlier stages -/

theorem Launched.append {stage : Stage} {after : List Event}
    (launched : Launched scheduling stage events) (childless : children after = []) :
    Launched scheduling stage (events ++ after) := by
  obtain ⟨asks, forked, ended⟩ := launched
  refine ⟨asks, by simpa [childless] using forked, fun sequential => ?_⟩
  obtain ⟨report, status, member, decoded, alive⟩ := ended sequential
  exact ⟨report, status, List.mem_append_left _ member, decoded, alive⟩

theorem Fault.append {stage : Stage} {error : RunError} {after : List Event}
    (fault : Fault scheduling stage events error) (childless : children after = []) :
    Fault scheduling stage (events ++ after) error := by
  have same : children (events ++ after) = children events := by simp [childless]
  cases fault with
  | unusable forked h => exact .unusable (same.trans forked) h
  | noPipe forked failed => exact .noPipe (same.trans forked) (List.mem_append_left _ failed)
  | noFork forked failed => exact .noFork (same.trans forked) (List.mem_append_left _ failed)
  | refused asks forked other refused => exact .refused asks (same.trans forked) other refused
  | waitFailed asks sequential forked failed =>
    exact .waitFailed asks sequential (same.trans forked) (List.mem_append_left _ failed)
  | unknownEnd asks sequential forked waited unknown =>
    exact .unknownEnd asks sequential (same.trans forked) (List.mem_append_left _ waited) unknown
  | killed asks sequential forked waited decoded =>
    exact .killed asks sequential (same.trans forked) (List.mem_append_left _ waited) decoded

abbrev LaunchedAll (scheduling : Scheduling) (stages : List Stage)
    (launched : List (List Event)) : Prop :=
  List.Forall₂ (Launched scheduling) stages launched

structure Carries (base table : Table) (carried : Option Descriptor) : Prop where
  keeps : base.Keeps table
  free : ∀ readEnd ∈ carried, base readEnd = .nothing
  isOpen : ∀ readEnd ∈ carried, table readEnd ≠ .nothing

namespace Carries

variable {carried : Option Descriptor} {later : Table}

theorem start (table : Table) : Carries table table none := ⟨.refl _, nofun, nofun⟩

theorem not_mem (carries : Carries base table carried) {descriptor : Descriptor}
    (isOpen : base descriptor ≠ .nothing) : descriptor ∉ carried.toList :=
  fun member => isOpen (carries.free _ (by simpa using member))

theorem source_isOpen (carries : Carries base table carried) {source : Descriptor}
    (isOpen : base source ≠ .nothing) : table (carried.getD source) ≠ .nothing := by
  cases carried with
  | none => exact carries.keeps.isOpen isOpen
  | some readEnd => exact carries.isOpen readEnd rfl

theorem next (carries : Carries base table carried) (kept : table.Keeps later)
    (only : Only (IsClose carried.toList) events) {readEnd : Descriptor}
    (free : table readEnd = .nothing) (isOpen : later readEnd ≠ .nothing) :
    Carries base (later.afterAll events) (some readEnd) := by
  refine ⟨fun descriptor isOpen => ?_, ?_, ?_⟩
  · rw [Table.afterAll_apply_of_closes only (carries.not_mem isOpen)]
    exact carries.keeps.trans kept descriptor isOpen
  · rintro _ ⟨⟩
    exact Classical.byContradiction fun isOpen => carries.keeps.isOpen isOpen free
  · rintro _ ⟨⟩
    rw [Table.afterAll_apply_of_closes only fun member => ?_]
    · exact isOpen
    · exact carries.isOpen readEnd (by simpa using member) free

end Carries

inductive EarlierResult (scheduling : Scheduling) (flags : Flags) (base table : Table)
    (stages : List Stage) (events : List Event) :
    Except (PipelineFailure × Flags) (Option Descriptor) → Prop
  | launched {parts : List (List Event)} {carried : Option Descriptor}
    (all : LaunchedAll scheduling stages parts) (split : events = parts.flatten)
    (silent : announcements events = [])
    (carries : Carries base (table.afterAll events) carried) :
    EarlierResult scheduling flags base table stages events (.ok carried)
  | failed {before after : List Stage} {stage : Stage} {parts : List (List Event)}
    {rest : List Event} {error : RunError} (at_stage : stages = before ++ stage :: after)
    (all : LaunchedAll scheduling before parts) (split : events = parts.flatten ++ rest)
    (fault : Fault scheduling stage rest error) (announces : Announces True table events) :
    EarlierResult scheduling flags base table stages events
      (.error (.earlier error, { flags with error := true }))

theorem EarlierResult.cons {stage : Stage} {stages : List Stage} {segment rest : List Event}
    {result : Except (PipelineFailure × Flags) (Option Descriptor)}
    (others : EarlierResult scheduling flags base (table.afterAll segment) stages rest result)
    (launched : Launched scheduling stage segment) (silent : announcements segment = [])
    (kept : table.afterAll segment standardOutput = table standardOutput) :
    EarlierResult scheduling flags base table (stage :: stages) (segment ++ rest) result := by
  cases others with
  | launched all split silent_others carries =>
    refine .launched (.cons launched all) (by simp [split]) ?_ ?_
    · rw [announcements_append, silent, silent_others, List.append_nil]
    · rwa [Table.afterAll_append]
  | failed at_stage all split fault announces =>
    exact .failed (by rw [at_stage, List.cons_append]) (.cons launched all) (by simp [split]) fault
      (announces.prepend silent fun _ => kept)

namespace Pipeline

theorem startEarlier_cases {carried : Option Descriptor} {stages : List Stage}
    {result : Except (PipelineFailure × Flags) (Option Descriptor)}
    (run : Runs (startEarlier input flags scheduling carried stages) events (.value result))
    (clear : flags.error = false) (lawful : Lawful table events)
    (standing : ∀ descriptor ∈ [standardInput, standardOutput, input],
      base descriptor ≠ .nothing)
    (carries : Carries base table carried) :
    EarlierResult scheduling flags base table stages events result := by
  induction stages generalizing carried table events with
  | nil =>
    obtain ⟨rfl, ⟨⟩⟩ := runs_done_iff.1 run
    exact .launched .nil rfl rfl carries
  | cons stage stages ih =>
    rw [startEarlier, clear] at run
    simp only [Bool.false_eq_true, if_false] at run
    rw [Runs.bind_value_iff (steady_startStage ..).contained] at run
    obtain ⟨starting, rest, started, rfl, starts, returns⟩ := run
    have standing_stage : ∀ descriptor ∈ [standardInput, standardOutput, carried.getD input],
        table descriptor ≠ .nothing := by
      intro descriptor member
      rcases (List.mem_append (s := [_, _])).1 member with member | member
      · exact carries.keeps.isOpen (standing descriptor (List.mem_append_left [input] member))
      · obtain rfl := List.mem_singleton.1 member
        exact carries.source_isOpen (standing input (by simp))
    obtain ⟨keeps, short, result⟩ := startStage_cases starts lawful.append.1 standing_stage
    have silent := announcements_of_short short
    have open_output : base standardOutput ≠ .nothing := standing _ (by simp)
    have kept := keeps _ (carries.keeps.isOpen open_output)
    rcases started with error | readEnd
    · obtain ⟨reply, _, rfl, tidies⟩ := runs_announce_immortal_bind returns (by simp)
      obtain ⟨closing, _, rfl, only, ends⟩ := runs_closeAll_bind tidies (by simp)
      obtain ⟨rfl, ⟨⟩⟩ := runs_done_iff.1 ends
      refine .failed (List.nil_append _).symm .nil rfl ?_ ?_
      · refine Fault.append result ?_
        simp [only.children_eq]
      · refine Announces.prepend ?_ silent fun _ => kept
        rw [List.append_nil]
        exact (Announces.write _ reply).append (announcements_of_closes only)
          (Table.afterAll_apply_of_closes only (carries.not_mem open_output))
    · obtain ⟨closing, others, rfl, only, run'⟩ := runs_closeAll_bind returns (by simp)
      obtain ⟨launched, free, isOpen⟩ := result
      rw [← List.append_assoc] at lawful ⊢
      have carries' : Carries base (table.afterAll (starting ++ closing)) (some readEnd) := by
        rw [Table.afterAll_append]
        exact carries.next keeps only free isOpen
      refine (ih run' lawful.append.2 carries').cons (launched.append only.children_eq) ?_ ?_
      · simp [silent, announcements_of_closes only]
      · rw [Table.afterAll_append,
          Table.afterAll_apply_of_closes only (carries.not_mem open_output), kept]

/-! ## The whole pipeline -/

/-- How a run of a pipeline has come out. -/
inductive RunResult (scheduling : Scheduling) (pipeline : Pipeline) (output : Descriptor)
    (flags : Flags) (table : Table) (events : List Event) :
    Outcome (PipelineFailure × Flags) → Prop
  | replaced {parts : List (List Event)} {rest : List Event} {program : Word}
    {arguments : List String} (all : LaunchedAll scheduling pipeline.earlier parts)
    (split : events = parts.flatten ++ rest) (childless : children rest = [])
    (asks : pipeline.last.Asks program arguments) (silent : announcements events = []) :
    RunResult scheduling pipeline output flags table events
      (.ended (.replaced program.toString arguments))
  | earlier {before after : List Stage} {stage : Stage} {parts : List (List Event)}
    {rest : List Event} {error : RunError}
    (at_stage : pipeline.earlier = before ++ stage :: after)
    (all : LaunchedAll scheduling before parts) (split : events = parts.flatten ++ rest)
    (fault : Fault scheduling stage rest error) (announces : Announces True table events) :
    RunResult scheduling pipeline output flags table events
      (.value (.earlier error, { flags with error := true }))
  | last {parts : List (List Event)} {rest : List Event} {carried : Descriptor} {error : RunError}
    (all : LaunchedAll scheduling pipeline.earlier parts) (split : events = parts.flatten ++ rest)
    (childless : children rest = []) (fault : LastFault pipeline.last carried output rest error)
    (announces : Announces (output = standardOutput ∨ Restores events) table events) :
    RunResult scheduling pipeline output flags table events
      (.value (.final error, { flags with error := true }))
  | unread {parts : List (List Event)} {rest : List Event} {carried : Descriptor}
    {error : RunError} (all : LaunchedAll scheduling pipeline.earlier parts)
    (split : events = parts.flatten ++ rest) (childless : children rest = [])
    (fault : LastFault pipeline.last carried output rest error)
    (announces : Announces (output = standardOutput ∨ Restores events) table events)
    (reset : .answered (.setSignal Signal.brokenPipe.number false) (.ok ()) ∈ events)
    (last : events.getLast? =
      some (.answered (.write standardOutput commandNotFound.toUTF8) (.error .brokenPipe))) :
    RunResult scheduling pipeline output flags table events
      (.ended (.killed Signal.brokenPipe.number))

theorem run_aborts {pipeline : Pipeline} {outcome : Outcome (PipelineFailure × Flags)}
    (run : Runs (pipeline.run input output flags scheduling) events outcome)
    (failed : flags.error = true) (several : pipeline.earlier ≠ []) :
    events = [] ∧ outcome = .value (.aborted, flags) := by
  obtain ⟨stage, rest, same⟩ := List.exists_cons_of_ne_nil several
  unfold Pipeline.run at run
  rw [same, startEarlier, failed] at run
  exact runs_done_iff.1 run

theorem clear_or_alone {pipeline : Pipeline}
    (begun : ¬ (flags.error = true ∧ pipeline.earlier ≠ [])) :
    flags.error = false ∨ pipeline.earlier = [] := by
  by_cases failed : flags.error = true
  · exact .inr (Classical.byContradiction fun several => begun ⟨failed, several⟩)
  · exact .inl (by simpa using failed)

theorem run_cases {pipeline : Pipeline} {outcome : Outcome (PipelineFailure × Flags)}
    (run : Runs (pipeline.run input output flags scheduling) events outcome)
    (complete : outcome ≠ .ended .pending)
    (clear : flags.error = false ∨ pipeline.earlier = []) (lawful : Lawful table events)
    (standing : ∀ descriptor ∈ [standardInput, standardOutput, input],
      table descriptor ≠ .nothing) :
    RunResult scheduling pipeline output flags table events outcome := by
  have earlier_cases : ∀ {starting started}, Runs (startEarlier input flags scheduling none
      pipeline.earlier) starting (.value started) → Lawful table starting →
        EarlierResult scheduling flags table table pipeline.earlier starting started := by
    intro starting started starts lawful
    rcases clear with clear | alone
    · exact startEarlier_cases starts clear lawful standing (.start _)
    · rw [alone] at starts ⊢
      obtain ⟨rfl, ⟨⟩⟩ := runs_done_iff.1 starts
      exact .launched .nil rfl rfl (.start _)
  unfold Pipeline.run at run
  obtain ⟨starting, rest, started, rfl, starts, returns⟩ :=
    Runs.bind_complete (steady_startEarlier ..) complete run
  cases earlier_cases starts lawful.append.1 with
  | failed at_stage all split fault announces =>
    obtain ⟨rfl, rfl⟩ := runs_done_iff.1 returns
    rw [List.append_nil]
    exact .earlier at_stage all split fault announces
  | @launched parts carried all split silent carries =>
    have lawful_last := lawful.append.2
    have open_output := standing standardOutput (by simp)
    have kept := carries.keeps standardOutput open_output
    rcases (Runs.bind_iff (contained_becomeLast ..)).1 returns with
      ⟨lasting, _, error, rfl, becomes, tidies⟩ | ⟨fate, rfl, becomes⟩
    · obtain ⟨closing, _, rfl, only, ends⟩ := runs_closeAll_bind tidies complete
      obtain ⟨rfl, rfl⟩ := runs_done_iff.1 ends
      obtain ⟨childless, result⟩ := becomeLast_cases becomes nofun lawful_last.append.1
      cases result with
      | failed fault announces =>
        refine .last all (by rw [split]) (by simp [childless, only.children_eq])
          (fault.append _) (((announces.append ?_ ?_).prepend silent fun _ => kept).mono
            fun assumed => assumed.imp_right fun restores => restores.right.left)
        · rw [List.append_nil]
          exact announcements_of_closes only
        · rw [List.append_nil]
          exact Table.afterAll_apply_of_closes only (carries.not_mem open_output)
    · obtain ⟨childless, result⟩ := becomeLast_cases becomes
        (fun same => complete (by cases same; rfl)) lawful_last
      cases result with
      | replaced asks silent_last =>
        exact .replaced all (by rw [split]) childless asks (by simp [silent, silent_last])
      | unread fault announces reset last =>
        refine .unread all (by rw [split]) childless fault
          ((announces.prepend silent fun _ => kept).mono
            fun assumed => assumed.imp_right fun restores => restores.right) (by simp [reset]) ?_
        rw [List.getLast?_append, last]
        rfl

/-- A pipeline of several stages is not begun if its line has failed before. Any other pipeline
launches its stages in order, once each, up to the first that has a fault, and the message about
that is written once. It is written to what was standard output from the start if this is the output
of the pipeline, or else if standard output could be saved and put back. A process whose message
nobody can read does not come back if a broken pipe ends it by then. -/
theorem fails_once (pipeline : Pipeline) (input output : Descriptor) (flags : Flags)
    (scheduling : Scheduling) (isOpen : Descriptor → Bool) (events : List Event)
    (outcome : Outcome (PipelineFailure × Flags))
    (run : Runs (pipeline.run input output flags scheduling) events outcome)
    (complete : outcome ≠ .ended .pending) (lawful : Lawful (Table.start isOpen) events)
    (standing : ∀ descriptor ∈ [standardInput, standardOutput, input], isOpen descriptor = true) :
    if flags.error = true ∧ pipeline.earlier ≠ [] then
      events = [] ∧ outcome = .value (.aborted, flags)
    else RunResult scheduling pipeline output flags (Table.start isOpen) events outcome := by
  split
  · rename_i aborted
    exact run_aborts run aborted.1 aborted.2
  · rename_i begun
    refine run_cases run complete (clear_or_alone begun) lawful fun descriptor member => ?_
    simp [Table.start, standing descriptor member]

def notFoundRun : List Event := [
  .answered (.duplicateFrom standardOutput 3) (.ok 6),
  .answered (.duplicateTo 5 standardOutput) (.ok ()),
  .answered (.setSignal Signal.interrupt.number false) (.ok ()),
  .answered (.setSignal Signal.brokenPipe.number false) (.ok ()),
  .answered (.exec "a" ["a"]) .noEntry,
  .answered (.duplicateTo 6 standardOutput) (.ok ()),
  .answered (.close 6) (.ok ()),
  .answered (.write standardOutput commandNotFound.toUTF8) (.ok 26)]

theorem fails_once_not_found :
    RunResult .sequential ⟨[], ⟨[['a']]⟩⟩ 5 {} (Table.start (· ∈ [0, 1, 2, 5])) notFoundRun
      (.value (.final (.exec ['a'] .noEntry), { error := true })) := by
  have run : Runs (Pipeline.run ⟨[], ⟨[['a']]⟩⟩ standardInput 5 {} .sequential) notFoundRun
      (.value (.final (.exec ['a'] .noEntry), { error := true })) :=
    .call _ rfl <| .call _ rfl <| .call _ rfl <| .call _ rfl <| .call _ rfl <| .call _ rfl <|
      .call _ rfl <| .call _ rfl <| .done _
  have lawful : Lawful (Table.start (· ∈ [0, 1, 2, 5])) notFoundRun := by
    simp [notFoundRun, Lawful, Event.Lawful, Call.gains, Call.leastGain, Table.start, ReportsArrive]
  exact fails_once ⟨[], ⟨[['a']]⟩⟩ standardInput 5 {} .sequential (· ∈ [0, 1, 2, 5]) notFoundRun _
    run (by simp) lawful (by decide)

def unsavedRun : List Event := [
  .answered (.duplicateFrom standardOutput 3) (.error .tooManyOpen),
  .answered (.duplicateTo 5 standardOutput) (.ok ()),
  .answered (.setSignal Signal.interrupt.number false) (.ok ()),
  .answered (.setSignal Signal.brokenPipe.number false) (.ok ()),
  .answered (.exec "a" ["a"]) .noEntry,
  .answered (.write standardOutput commandNotFound.toUTF8) (.ok 26)]

/-- The message does not always go to what was standard output from the start. -/
theorem message_goes_to_output :
    ¬ ∀ (pipeline : Pipeline) (input output : Descriptor) (flags : Flags) (scheduling : Scheduling)
      (isOpen : Descriptor → Bool) (events : List Event) (failure : PipelineFailure)
      (flags' : Flags),
      Runs (pipeline.run input output flags scheduling) events (.value (failure, flags')) →
      failure ≠ .aborted → Lawful (Table.start isOpen) events →
      (∀ descriptor ∈ [standardInput, standardOutput, input, output], isOpen descriptor = true) →
      Announces True (Table.start isOpen) events := by
  intro claim
  have run : Runs (Pipeline.run ⟨[], ⟨[['a']]⟩⟩ standardInput 5 {} .concurrent) unsavedRun
      (.value (.final (.exec ['a'] .noEntry), { error := true })) :=
    .call _ rfl <| .call _ rfl <| .call _ rfl <| .call _ rfl <| .call _ rfl <| .call _ rfl <|
      .done _
  have lawful : Lawful (Table.start (· ∈ [0, 1, 2, 5])) unsavedRun := by
    simp [unsavedRun, Lawful, Event.Lawful, Call.gains, ReportsArrive]
  obtain ⟨kept, -⟩ := (claim ⟨[], ⟨[['a']]⟩⟩ standardInput 5 {} .concurrent (· ∈ [0, 1, 2, 5])
    unsavedRun _ _ run (by simp) lawful (by decide)).original trivial
  have moved : (Table.start (· ∈ [0, 1, 2, 5])).afterAll unsavedRun standardOutput = .original 5 :=
    rfl
  rw [moved] at kept
  cases kept

end Pipeline

end PipelineShell
