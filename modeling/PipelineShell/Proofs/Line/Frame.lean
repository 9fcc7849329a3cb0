import PipelineShell.Proofs.Pipeline.Frame

namespace PipelineShell

open PipelineShell.Action

variable {α β σ : Type} {descriptor : Descriptor} {post : α → Prop} {post' : β → Prop}

namespace Action

theorem avoids_loop {step : σ → Action (Turn σ α)}
    (h : ∀ state, (step state).Avoids descriptor fun turn =>
      ∀ value, turn = .leave value → post value)
    (turns : Nat) (state : σ) : (loop step turns state).Avoids descriptor post := by
  induction turns generalizing state with
  | zero => trivial
  | succ turns ih =>
    refine (h state).bind fun turn left => ?_
    cases turn with
    | again state => exact ih state
    | leave value => exact left value rfl

theorem avoids_uninterrupted {action : Action (Except Errno α)}
    (h : action.Avoids descriptor fun result => ∀ value, result = .ok value → post value) :
    (uninterrupted action).Avoids descriptor fun result =>
      ∀ value, result = .ok value → post value := by
  apply avoids_loop
  intro _
  refine h.bind fun result good => ?_
  cases result with
  | error errno =>
    rintro left same
    split at same <;> cases same
    exact nofun
  | ok value =>
    rintro _ ⟨⟩
    exact good

end Action

theorem runs_uninterrupted {action : Action (Except Errno α)} {events : List Event} {value : α}
    (contained : action.Contained) (run : Runs (uninterrupted action) events (.value (.ok value))) :
    ∃ before last, events = before ++ last ∧ Runs action last (.value (.ok value)) := by
  unfold uninterrupted at run
  generalize patience = turns at run
  induction turns generalizing events with
  | zero => cases run
  | succ turns ih =>
    rw [loop_succ, Action.bind_assoc, Runs.bind_value_iff contained] at run
    obtain ⟨first, rest, result, rfl, once, again⟩ := run
    cases result with
    | error errno =>
      by_cases interrupted : errno = .interrupted
      · simp only [interrupted, if_true, pure_eq, done_bind] at again
        obtain ⟨before, last, rfl, succeeds⟩ := ih again
        exact ⟨first ++ before, last, (List.append_assoc ..).symm, succeeds⟩
      · simp only [interrupted, if_false, pure_eq, done_bind] at again
        obtain ⟨-, ⟨⟩⟩ := runs_done_iff.1 again
    | ok other =>
      obtain ⟨rfl, ⟨⟩⟩ := runs_done_iff.1 again
      exact ⟨[], first, by simp, once⟩

namespace Redirection

theorem avoids_openPath? (path : Option Word) (mode : OpenMode) :
    (openPath? path mode).Avoids descriptor fun opened =>
      ∀ given, opened = .ok given → descriptor ∉ given.toList := by
  cases path with
  | none =>
    rintro _ ⟨⟩
    simp
  | some path =>
    have opens : (openPath path mode).Avoids descriptor fun opened =>
        ∀ given, opened = .ok given → descriptor ≠ given := by
      unfold openPath
      split
      · rintro _ ⟨⟩
      · have once : (perform (.openFile path.toString mode)).Avoids descriptor fun reply =>
            ∀ given, reply = .ok given → descriptor ≠ given := by
          refine ⟨rfl, ?_⟩
          intro reply ungiven given same
          subst same
          simpa [Call.gains] using ungiven
        refine (avoids_uninterrupted once).bind fun opened good => ?_
        cases opened with
        | error errno => rintro _ ⟨⟩
        | ok given =>
          rintro _ ⟨⟩
          exact good given rfl
    refine opens.bind fun opened good => ?_
    cases opened with
    | error error => rintro _ ⟨⟩
    | ok given =>
      rintro _ ⟨⟩
      simpa using good given rfl

theorem avoids_openFor (statement : Statement) :
    (openFor statement).Avoids descriptor fun opened => ∀ redirection, opened = .ok redirection →
      descriptor ∉ redirection.input.toList ∧ descriptor ∉ redirection.output.toList := by
  refine (avoids_openPath? ..).bind fun input not_input => ?_
  cases input with
  | error error => exact nofun
  | ok input =>
    refine (avoids_openPath? ..).bind fun output not_output => ?_
    cases output with
    | ok output =>
      rintro _ ⟨⟩
      exact ⟨not_input input rfl, not_output output rfl⟩
    | error error => exact (avoids_closeAll (not_input input rfl)).bind fun _ _ => nofun

theorem avoids_close {redirection : Redirection} (not_input : descriptor ∉ redirection.input.toList)
    (not_output : descriptor ∉ redirection.output.toList) :
    redirection.close.Avoids descriptor fun _ => True :=
  (avoids_closeAll not_input).bind fun _ _ => avoids_closeAll not_output

variable {table : Table} {events : List Event}

theorem runs_openPath? {path : Option Word} {mode : OpenMode} {given : Option Descriptor}
    (run : Runs (openPath? path mode) events (.value (.ok given))) (table : Table) :
    ∀ opened ∈ given, table.afterAll events opened = .newer := by
  cases path with
  | none =>
    obtain ⟨-, ⟨⟩⟩ := runs_done_iff.1 run
    exact nofun
  | some path =>
    change Runs (openPath path mode >>= _) events _ at run
    unfold openPath at run
    split at run
    · obtain ⟨-, ⟨⟩⟩ := runs_done_iff.1 run
    · have once : (perform (.openFile path.toString mode)).Steady := steady_perform rfl
      rw [Action.bind_assoc, Runs.bind_value_iff (steady_uninterrupted once).contained] at run
      obtain ⟨opening, _, result, rfl, opens, returns⟩ := run
      cases result with
      | error errno => obtain ⟨-, ⟨⟩⟩ := runs_done_iff.1 returns
      | ok opened =>
        obtain ⟨rfl, ⟨⟩⟩ := runs_done_iff.1 returns
        obtain ⟨before, last, rfl, succeeds⟩ := runs_uninterrupted once.contained opens
        rcases (runs_call_iff rfl).1 succeeds with ⟨-, ⟨⟩⟩ | ⟨reply, _, rfl, returns⟩
        obtain ⟨rfl, ⟨⟩⟩ := runs_done_iff.1 returns
        rintro _ ⟨⟩
        simp [Table.after]

theorem runs_openFor {statement : Statement} {redirection : Redirection}
    (run : Runs (openFor statement) events (.value (.ok redirection)))
    (lawful : Lawful table events)
    (standing : ∀ standard ∈ [standardInput, standardOutput], table standard ≠ .nothing) :
    ∀ used ∈ [standardInput, standardOutput, redirection.inputEnd, redirection.outputEnd],
      table.afterAll events used ≠ .nothing := by
  have kept : ∀ standard ∈ [standardInput, standardOutput],
      table.afterAll events standard ≠ .nothing := by
    intro standard member
    have isOpen := standing standard member
    rw [run.keeps (avoids_openFor statement).spares lawful isOpen]
    exact isOpen
  unfold openFor at run
  rw [Runs.bind_value_iff (steady_openPath? ..).contained] at run
  obtain ⟨first, _, input, rfl, opens_input, run⟩ := run
  cases input with
  | error error => obtain ⟨-, ⟨⟩⟩ := runs_done_iff.1 run
  | ok input =>
    rw [Runs.bind_value_iff (steady_openPath? ..).contained] at run
    obtain ⟨second, _, output, rfl, opens_output, returns⟩ := run
    cases output with
    | error error =>
      obtain ⟨_, _, rfl, _, returns⟩ := runs_closeAll_bind returns nofun
      obtain ⟨-, ⟨⟩⟩ := runs_done_iff.1 returns
    | ok output =>
      obtain ⟨rfl, ⟨⟩⟩ := runs_done_iff.1 returns
      rw [List.append_nil] at lawful kept ⊢
      have input_open : ∀ opened ∈ input, table.afterAll (first ++ second) opened ≠ .nothing := by
        intro opened member
        have newer := runs_openPath? opens_input table opened member
        have isOpen : table.afterAll first opened ≠ .nothing := by simp [newer]
        rw [Table.afterAll_append,
          opens_output.keeps (avoids_openPath? ..).spares lawful.append.2 isOpen]
        exact isOpen
      have output_open : ∀ opened ∈ output,
          table.afterAll (first ++ second) opened ≠ .nothing := by
        intro opened member
        rw [Table.afterAll_append, runs_openPath? opens_output _ opened member]
        nofun
      intro used member
      simp only [List.mem_cons, List.not_mem_nil, or_false] at member
      rcases member with rfl | rfl | rfl | rfl
      · exact kept _ (by simp)
      · exact kept _ (by simp)
      · cases input with
        | none => exact kept _ (by simp [inputEnd])
        | some opened => exact input_open opened rfl
      · cases output with
        | none => exact kept _ (by simp [outputEnd])
        | some opened => exact output_open opened rfl

end Redirection

theorem Table.afterAll_of_messages (only : Only Call.IsMessage events) (table : Table) :
    table.afterAll events = table :=
  funext fun _ => afterAll_apply_of_only only
    (fun _ message => by cases message <;> exact ⟨rfl, fun _ => rfl⟩) table

theorem Console.spares_log (console : Console) (message : String) :
    (console.log message).Spares descriptor fun _ => True := by
  apply (calls_log ..).spares
  rintro _ ⟨part, rfl⟩
  rfl

namespace Pipeline

theorem avoids_awaitJob {channel : Channel} {pid : Int} (not_watcher : descriptor ≠ channel.watcher)
    (not_reporter : descriptor ≠ channel.reporter) :
    (awaitJob channel pid).Avoids descriptor fun _ => True := by
  refine (avoids_closeAll (by simpa using not_reporter)).bind fun _ _ => ?_
  refine (Channel.avoids_await not_watcher).bind fun failure _ => ?_
  refine avoids_perform_bind rfl fun reply _ => ?_
  cases reply with
  | error errno => trivial
  | ok report =>
    dsimp only
    split <;> trivial

theorem spares_runAsJob (pipeline : Pipeline) (input output : Descriptor) (background : Bool)
    (flags : Flags) (scheduling : Scheduling) :
    (pipeline.runAsJob input output background flags scheduling).Spares descriptor
      fun _ => True := by
  cases background with
  | true => exact spares_fork_bind (fun _ => trivial) fun _ => trivial
  | false =>
    refine Channel.avoids_create.spares.bind fun created given => ?_
    cases created with
    | error errno => trivial
    | ok channel =>
      obtain ⟨watcher, reporter⟩ := given channel rfl
      apply spares_fork_bind
      · intro errno
        have other : descriptor ∉ [channel.watcher, channel.reporter] := by
          simp [watcher.symm, reporter.symm]
        exact (avoids_closeAll other).spares.bind fun _ _ => trivial
      · intro pid
        exact (avoids_awaitJob watcher.symm reporter.symm).spares

end Pipeline

theorem Statement.spares_run (statement : Statement) (flags : Flags) (settings : Settings) :
    (statement.run flags settings).Spares descriptor fun _ => True := by
  refine (Redirection.avoids_openFor statement).spares.bind fun opened given => ?_
  cases opened with
  | error error => trivial
  | ok redirection =>
    obtain ⟨not_input, not_output⟩ := given redirection rfl
    refine (Console.spares_log ..).bind fun _ _ => ⟨rfl, fun flushed _ _ => ?_⟩
    have closes := (Redirection.avoids_close not_input not_output).spares
    cases flushed with
    | error cause => exact closes.bind fun _ _ => trivial
    | ok _ => exact (Pipeline.spares_runAsJob ..).bind fun _ _ => closes.bind fun _ _ => trivial

end PipelineShell
