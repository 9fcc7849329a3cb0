import PipelineShell.Proofs.Line.Ends
import PipelineShell.Proofs.Pipeline.Calls

namespace PipelineShell

open PipelineShell.Action

variable {events : List Event}

def OpensNothing (request : Call) : Prop := ∀ path mode, request ≠ .openFile path mode

theorem IsJobCall.opensNothing {request : Call} (call : IsJobCall request) :
    OpensNothing request := by
  rcases call with staging | rfl
  · cases staging <;> nofun
  · nofun

theorem Call.IsMessage.opensNothing {request : Call} (message : request.IsMessage) :
    OpensNothing request := by
  cases message <;> nofun

inductive Tries (mode : OpenMode) :
    Option Word → List Event → Option (Except FileError (Option Descriptor)) → Prop
  | absent : Tries mode none [] (some (.ok none))
  | improper {path : Word} (nul : '\x00' ∈ path) :
    Tries mode (some path) [] (some (.error .nulInPath))
  | unanswered {path : Word} (proper : '\x00' ∉ path) : Tries mode (some path) [] none
  | given {path : Word} (proper : '\x00' ∉ path) (descriptor : Descriptor) :
    Tries mode (some path) [.answered (.openFile path.toString mode) (.ok descriptor)]
      (some (.ok (some descriptor)))
  | refused {path : Word} (proper : '\x00' ∉ path) {errno : Errno}
    (final : errno ≠ .interrupted) :
    Tries mode (some path) [.answered (.openFile path.toString mode) (.error errno)]
      (some (.error (.ofErrno errno)))
  | again {path : Word} (proper : '\x00' ∉ path) {rest : List Event}
    {result : Option (Except FileError (Option Descriptor))}
    (later : Tries mode (some path) rest result) :
    Tries mode (some path)
      (.answered (.openFile path.toString mode) (.error .interrupted) :: rest) result

/-- How far the opening of a statement's files is after these events. The output is tried only when
the input, if there is one, is open. -/
inductive Statement.Opens (statement : Statement) :
    List Event → Option (Except RunError Redirection) → Prop
  | reading {reading : List Event}
    (tries : Tries Redirection.inputMode statement.input reading none) :
    Opens statement reading none
  | noInput {reading : List Event} {path : Word} {cause : FileError}
    (path_eq : statement.input = some path)
    (tries : Tries Redirection.inputMode statement.input reading (some (.error cause))) :
    Opens statement reading (some (.error (.redirect path cause)))
  | writing {reading writing : List Event} {input : Option Descriptor}
    (given : Tries Redirection.inputMode statement.input reading (some (.ok input)))
    (tries : Tries Redirection.outputMode statement.output writing none) :
    Opens statement (reading ++ writing) none
  | noOutput {reading writing closing : List Event} {input : Option Descriptor} {path : Word}
    {cause : FileError} (path_eq : statement.output = some path)
    (given : Tries Redirection.inputMode statement.input reading (some (.ok input)))
    (tries : Tries Redirection.outputMode statement.output writing (some (.error cause)))
    (closes : Only (IsClose input.toList) closing) :
    Opens statement (reading ++ (writing ++ closing)) (some (.error (.redirect path cause)))
  | opened {reading writing : List Event} {input output : Option Descriptor}
    (given : Tries Redirection.inputMode statement.input reading (some (.ok input)))
    (tries : Tries Redirection.outputMode statement.output writing (some (.ok output))) :
    Opens statement (reading ++ writing) (some (.ok ⟨input, output⟩))

theorem tries_of_runs {path : Word} {mode : OpenMode} (proper : '\x00' ∉ path)
    {outcome : Outcome (Except Errno Descriptor)}
    (run : Runs (uninterrupted (perform (.openFile path.toString mode))) events outcome) :
    (outcome = .ended .pending ∧ Tries mode (some path) events none) ∨
    (∃ descriptor, outcome = .value (.ok descriptor) ∧
      Tries mode (some path) events (some (.ok (some descriptor)))) ∨
    ∃ errno, outcome = .value (.error errno) ∧
      Tries mode (some path) events (some (.error (.ofErrno errno))) := by
  unfold uninterrupted at run
  generalize patience = turns at run
  induction turns generalizing events with
  | zero =>
    cases run
    exact .inl ⟨rfl, .unanswered proper⟩
  | succ turns ih =>
    rw [loop_succ, Action.bind_assoc] at run
    rcases (runs_perform_bind_iff rfl).1 run with ⟨rfl, rfl⟩ | ⟨reply, rest, rfl, decides⟩
    · exact .inl ⟨rfl, .unanswered proper⟩
    cases reply with
    | ok descriptor =>
      obtain ⟨rfl, rfl⟩ := runs_done_iff.1 decides
      exact .inr (.inl ⟨descriptor, rfl, .given proper descriptor⟩)
    | error errno =>
      by_cases interrupted : errno = .interrupted
      · simp only [interrupted, if_true, pure_eq, done_bind] at decides ⊢
        rcases ih decides with ⟨rfl, later⟩ | ⟨descriptor, rfl, later⟩ | ⟨errno, rfl, later⟩
        · exact .inl ⟨rfl, .again proper later⟩
        · exact .inr (.inl ⟨descriptor, rfl, .again proper later⟩)
        · exact .inr (.inr ⟨errno, rfl, .again proper later⟩)
      · simp only [interrupted, if_false, pure_eq, done_bind] at decides
        obtain ⟨rfl, rfl⟩ := runs_done_iff.1 decides
        exact .inr (.inr ⟨errno, rfl, .refused proper interrupted⟩)

namespace Redirection

theorem tries_of_runs_openPath? {path? : Option Word} {mode : OpenMode}
    {outcome : Outcome (Except RunError (Option Descriptor))}
    (run : Runs (openPath? path? mode) events outcome) :
    (outcome = .ended .pending ∧ Tries mode path? events none) ∨
    (∃ given, outcome = .value (.ok given) ∧ Tries mode path? events (some (.ok given))) ∨
    ∃ path cause, path? = some path ∧ outcome = .value (.error (.redirect path cause)) ∧
      Tries mode path? events (some (.error cause)) := by
  cases path? with
  | none =>
    obtain ⟨rfl, rfl⟩ := runs_done_iff.1 run
    exact .inr (.inl ⟨none, rfl, .absent⟩)
  | some path =>
    change Runs (openPath path mode >>= _) events _ at run
    unfold openPath at run
    split at run
    next nul =>
      obtain ⟨rfl, rfl⟩ := runs_done_iff.1 run
      exact .inr (.inr ⟨path, .nulInPath, rfl, rfl, .improper nul⟩)
    next proper =>
      have once : (perform (.openFile path.toString mode)).Steady := steady_perform rfl
      rw [Action.bind_assoc, Runs.bind_iff (steady_uninterrupted once).contained] at run
      rcases run with ⟨opening, _, result, rfl, opens, returns⟩ | ⟨fate, rfl, opens⟩
      · rcases tries_of_runs proper opens with ⟨⟨⟩, -⟩ | ⟨descriptor, same, tries⟩ |
          ⟨errno, same, tries⟩
        · cases same
          obtain ⟨rfl, rfl⟩ := runs_done_iff.1 returns
          exact .inr (.inl ⟨some descriptor, rfl, by simpa using tries⟩)
        · cases same
          obtain ⟨rfl, rfl⟩ := runs_done_iff.1 returns
          exact .inr (.inr ⟨path, .ofErrno errno, rfl, rfl, by simpa using tries⟩)
      · rcases tries_of_runs proper opens with ⟨same, tries⟩ | ⟨_, ⟨⟩, -⟩ | ⟨_, ⟨⟩, -⟩
        cases same
        exact .inl ⟨rfl, tries⟩

theorem opens_of_runs {statement : Statement} {outcome : Outcome (Except RunError Redirection)}
    (run : Runs (openFor statement) events outcome) :
    ∃ opened?, statement.Opens events opened? ∧
      (outcome = .ended .pending ∧ (∀ redirection, opened? ≠ some (.ok redirection)) ∨
        ∃ result, outcome = .value result ∧ opened? = some result) := by
  unfold openFor at run
  rcases (Runs.bind_iff (steady_openPath? ..).contained).1 run with
    ⟨first, rest, input, rfl, opens, goes_on⟩ | ⟨fate, rfl, opens⟩
  · rcases tries_of_runs_openPath? opens with ⟨⟨⟩, -⟩ | ⟨input, same, given⟩ |
      ⟨path, cause, path_eq, same, tries⟩
    · cases same
      rcases (Runs.bind_iff (steady_openPath? ..).contained).1 goes_on with
        ⟨second, rest, output, rfl, opens, returns⟩ | ⟨fate, rfl, opens⟩
      · rcases tries_of_runs_openPath? opens with ⟨⟨⟩, -⟩ | ⟨output, same, tries⟩ |
          ⟨path, cause, path_eq, same, tries⟩
        · cases same
          obtain ⟨rfl, rfl⟩ := runs_done_iff.1 returns
          exact ⟨_, by simpa using .opened given tries, .inr ⟨_, rfl, rfl⟩⟩
        · cases same
          rcases (Runs.bind_iff (steady_closeAll _).contained).1 returns with
            ⟨closing, _, _, rfl, closes, left⟩ | ⟨fate, rfl, closes⟩
          · obtain ⟨rfl, rfl⟩ := runs_done_iff.1 left
            have only := closes.only (calls_closeAll _)
            exact ⟨_, by simpa using .noOutput path_eq given tries only, .inr ⟨_, rfl, rfl⟩⟩
          · have only := closes.only (calls_closeAll _)
            obtain rfl := closes.pending_of_steady (steady_closeAll _)
            exact ⟨_, .noOutput path_eq given tries only, .inl ⟨rfl, nofun⟩⟩
      · rcases tries_of_runs_openPath? opens with ⟨same, tries⟩ | ⟨_, ⟨⟩, -⟩ | ⟨_, _, -, ⟨⟩, -⟩
        cases same
        exact ⟨_, .writing given tries, .inl ⟨rfl, nofun⟩⟩
    · cases same
      obtain ⟨rfl, rfl⟩ := runs_done_iff.1 goes_on
      exact ⟨_, by simpa using .noInput path_eq tries, .inr ⟨_, rfl, rfl⟩⟩
  · rcases tries_of_runs_openPath? opens with ⟨same, tries⟩ | ⟨_, ⟨⟩, -⟩ | ⟨_, _, -, ⟨⟩, -⟩
    cases same
    exact ⟨_, .reading tries, .inl ⟨rfl, nofun⟩⟩

end Redirection

def Event.touched? : Event → Option String
  | .answered (.openFile path mode) (.ok _) =>
    if mode.create || mode.truncate then some path else none
  | _ => none

/-- The files that the process and its descendants create or empty. -/
def touched (events : List Event) : List String := (tree events).filterMap Event.touched?

@[simp] theorem touched_nil : touched [] = [] := rfl

@[simp] theorem touched_append (first second : List Event) :
    touched (first ++ second) = touched first ++ touched second := by
  simp [touched]

theorem touched_eq_nil
    (opens_nothing : ∀ path mode reply, .answered (.openFile path mode) reply ∉ tree events) :
    touched events = [] := by
  rw [touched, List.filterMap_eq_nil_iff]
  intro event member
  rcases event with ⟨request, reply⟩ | _
  · cases request
    case openFile path mode => exact absurd member (opens_nothing path mode reply)
    all_goals rfl
  · rfl

theorem Only.touched_eq_nil {allowed : Call → Prop} (only : Only allowed events)
    (opens_nothing : ∀ request, allowed request → OpensNothing request) : touched events = [] := by
  apply PipelineShell.touched_eq_nil
  intro path mode reply member
  rw [only.tree_eq] at member
  exact opens_nothing _ (only.of_mem member) path mode rfl

theorem Tries.only {mode : OpenMode} {path? : Option Word}
    {result : Option (Except FileError (Option Descriptor))}
    (tries : Tries mode path? events result) :
    Only (fun request => ∃ path ∈ path?, request = .openFile path.toString mode) events := by
  induction tries with
  | absent | improper | unanswered => exact only_nil
  | given | refused => simp
  | again proper later ih => exact only_answered.2 ⟨by simp, ih⟩

def ifOpen {ε α β : Type} (path? : Option β) : Option (Except ε α) → Option β
  | some (.ok _) => path?
  | some (.error _) | none => none

theorem Tries.touched_input {path? : Option Word}
    {result : Option (Except FileError (Option Descriptor))}
    (tries : Tries Redirection.inputMode path? events result) : touched events = [] := by
  induction tries with
  | absent | improper | unanswered | given | refused => rfl
  | again proper later ih => exact ih

theorem Tries.touched_output {path? : Option Word}
    {result : Option (Except FileError (Option Descriptor))}
    (tries : Tries Redirection.outputMode path? events result) :
    touched events = ((ifOpen path? result).map Word.toString).toList := by
  induction tries with
  | absent | improper | unanswered | given | refused => rfl
  | again proper later ih => exact ih

def FailsToOpen (path : Word) (cause : FileError) (events : List Event) : Prop :=
  ('\x00' ∈ path ∧ cause = .nulInPath) ∨
    ∃ mode errno, .answered (.openFile path.toString mode) (.error errno) ∈ events ∧
      errno ≠ .interrupted ∧ cause = .ofErrno errno

theorem Tries.failsToOpen {mode : OpenMode} {path : Word} {cause : FileError}
    (tries : Tries mode (some path) events (some (.error cause))) :
    FailsToOpen path cause events := by
  generalize path?_eq : some path = path?, result_eq : some (Except.error cause) = result at tries
  induction tries with
  | absent | unanswered | given => cases result_eq
  | improper nul =>
    cases path?_eq
    cases result_eq
    exact .inl ⟨nul, rfl⟩
  | refused proper final =>
    cases path?_eq
    cases result_eq
    exact .inr ⟨mode, _, by simp, final, rfl⟩
  | again proper later ih =>
    rcases ih path?_eq result_eq with improper | ⟨mode, errno, member, final⟩
    · exact .inl improper
    · exact .inr ⟨mode, errno, List.mem_cons_of_mem _ member, final⟩

namespace Statement.Opens

variable {statement : Statement} {opened? : Option (Except RunError Redirection)}

theorem children_eq (opens : statement.Opens events opened?) : children events = [] := by
  cases opens with
  | reading tries => exact tries.only.children_eq
  | noInput _ tries => exact tries.only.children_eq
  | writing given tries | opened given tries =>
    rw [children_append, given.only.children_eq, tries.only.children_eq, List.nil_append]
  | noOutput _ given tries closes =>
    simp [given.only.children_eq, tries.only.children_eq, closes.children_eq]

theorem touched_eq (opens : statement.Opens events opened?) :
    touched events = ((ifOpen statement.output opened?).map Word.toString).toList := by
  cases opens with
  | reading tries | noInput _ tries => exact tries.touched_input
  | writing given tries | opened given tries =>
    rw [touched_append, given.touched_input, tries.touched_output]
    rfl
  | @noOutput _ _ closing _ _ _ _ given tries closes =>
    have closed : touched closing = [] := by
      apply closes.touched_eq_nil
      rintro _ ⟨descriptor, -, rfl⟩
      simp [OpensNothing]
    rw [touched_append, touched_append, given.touched_input, tries.touched_output, closed]
    rfl

theorem refused {error : RunError} (opens : statement.Opens events (some (.error error))) :
    ∃ path cause, error = .redirect path cause ∧
      (statement.input = some path ∨ statement.output = some path) ∧
      FailsToOpen path cause events := by
  cases opens with
  | @noInput _ path cause path_eq tries =>
    rw [path_eq] at tries
    exact ⟨path, cause, rfl, .inl path_eq, tries.failsToOpen⟩
  | @noOutput reading writing closing _ path cause path_eq given tries closes =>
    rw [path_eq] at tries
    refine ⟨path, cause, rfl, .inr path_eq, ?_⟩
    rcases tries.failsToOpen with improper | ⟨mode, errno, member, final⟩
    · exact .inl improper
    · exact .inr ⟨mode, errno, by simp [member], final⟩

end Statement.Opens

/-- A statement's share of a run that may stop anywhere: the opening of its files and how far it
has come, everything else that the statement does, its result if there is one, and what the user is
told about that. -/
structure Share where
  statement : Statement
  opening : List Event
  opened? : Option (Except RunError Redirection)
  rest : List Event
  outcome : Outcome StatementResult
  telling : List Event

namespace Share

def trace (share : Share) : List Event := share.opening ++ share.rest ++ share.telling

def passed (share : Share) : Prop :=
  ∃ result : StatementResult, share.outcome = .value result ∧ result.fails = false

def target? (share : Share) : Option String :=
  (ifOpen share.statement.output share.opened?).map Word.toString

structure Fits (settings : Settings) (flags : Flags) (share : Share) : Prop where
  runs : Runs (share.statement.run flags settings) (share.opening ++ share.rest) share.outcome
  opens : share.statement.Opens share.opening share.opened?
  opens_no_more : ∀ path mode reply, .answered (.openFile path mode) reply ∉ tree share.rest
  forks_later : children share.opening = []
  forks : children share.rest ≠ [] → ∃ redirection, share.opened? = some (.ok redirection)
  unopened : ∀ error, share.opened? = some (.error error) →
    share.outcome = .value (.error error) ∨ share.outcome = .ended .pending
  tells : Only Call.IsMessage share.telling

variable {share : Share} {settings : Settings} {flags : Flags}

theorem Fits.touched_eq (fits : share.Fits settings flags) :
    touched share.trace = share.target?.toList := by
  have told := fits.tells.touched_eq_nil fun _ => Call.IsMessage.opensNothing
  rw [trace, touched_append, touched_append, fits.opens.touched_eq,
    touched_eq_nil fits.opens_no_more, told, List.append_nil, List.append_nil, target?]

theorem Fits.children_eq_nil (fits : share.Fits settings flags) {error : RunError}
    (refused : share.opened? = some (.error error)) : children share.trace = [] := by
  have none_later : children share.rest = [] := by
    by_contra forked
    obtain ⟨_, same⟩ := fits.forks forked
    rw [refused] at same
    cases same
  simp [trace, fits.forks_later, none_later, fits.tells.children_eq]

end Share

theorem Statement.exists_fits {statement : Statement} {flags : Flags} {settings : Settings}
    {outcome : Outcome StatementResult} (run : Runs (statement.run flags settings) events outcome)
    {telling : List Event} (tells : Only Call.IsMessage telling) :
    ∃ opening opened? rest, events = opening ++ rest ∧
      Share.Fits settings flags ⟨statement, opening, opened?, rest, outcome, telling⟩ := by
  have runs := run
  unfold Statement.run at run
  rcases (Runs.bind_iff (Redirection.steady_openFor _).contained).1 run with
    ⟨opening, rest, opened, rfl, opens, goes_on⟩ | ⟨fate, rfl, opens⟩
  · obtain ⟨opened?, opens, ⟨⟨⟩, -⟩ | ⟨result, same, rfl⟩⟩ := Redirection.opens_of_runs opens
    cases same
    refine ⟨opening, some opened, rest, rfl, ?_⟩
    cases opened with
    | error error =>
      obtain ⟨rfl, rfl⟩ := runs_done_iff.1 goes_on
      refine ⟨runs, opens, by simp, opens.children_eq, by simp, ?_, tells⟩
      rintro _ ⟨⟩
      exact .inl rfl
    | ok redirection =>
      refine ⟨runs, opens, ?_, opens.children_eq, fun _ => ⟨redirection, rfl⟩, nofun, tells⟩
      intro path mode reply member
      refine goes_on.throughout (?_ : Throughout OpensNothing _) _ _ member path mode rfl
      -- Once its files are open, a statement opens nothing.
      have logs : (settings.console.log (statement.announcement settings)).Throughout
          OpensNothing := by
        refine (Console.calls_log ..).throughout.mono ?_
        rintro _ ⟨part, rfl⟩
        nofun
      have runs : (statement.pipeline.runAsJob redirection.inputEnd redirection.outputEnd
          statement.background flags settings.scheduling).Throughout OpensNothing :=
        (Pipeline.throughout_runAsJob ..).mono fun _ => IsJobCall.opensNothing
      have closes (descriptors : List Descriptor) :
          (closeAll descriptors).Throughout OpensNothing :=
        (throughout_closeAll descriptors).mono fun _ staging =>
          IsJobCall.opensNothing (.inl staging)
      have closed : redirection.close.Throughout OpensNothing :=
        (closes _).bind fun _ => closes _
      refine logs.bind fun _ => throughout_perform_bind nofun fun flushed => ?_
      cases flushed with
      | error cause => exact closed.bind fun _ => trivial
      | ok _ => exact runs.bind fun _ => closed.bind fun _ => trivial
  · obtain ⟨opened?, tries, ⟨same, unopened⟩ | ⟨_, ⟨⟩, -⟩⟩ := Redirection.opens_of_runs opens
    cases same
    exact ⟨events, opened?, [], by simp, by simpa using runs, tries, by simp, tries.children_eq,
      by simp, fun _ _ => .inr rfl, tells⟩

namespace Line

theorem exists_shares {settings : Settings} {flags : Flags} {progress : Progress}
    {statements : List Statement} {outcome : Outcome Progress}
    (run : Runs (runStatements settings flags progress statements) events outcome) :
    ∃ shares : List Share, events = (shares.map Share.trace).flatten ∧
      shares.map Share.statement <+: statements ∧
      (∀ share ∈ shares.dropLast, share.passed) ∧ ∀ share ∈ shares, share.Fits settings flags := by
  induction statements generalizing progress events with
  | nil =>
    obtain ⟨rfl, -⟩ := runs_done_iff.1 run
    exact ⟨[], rfl, List.prefix_rfl, by simp, by simp⟩
  | cons statement statements ih =>
    have alone {share : Share} (statement_eq : share.statement = statement)
        (fits : share.Fits settings flags) :
        ∃ shares : List Share, share.trace = (shares.map Share.trace).flatten ∧
          shares.map Share.statement <+: statement :: statements ∧
          (∀ share ∈ shares.dropLast, share.passed) ∧
          ∀ share ∈ shares, share.Fits settings flags :=
      ⟨[share], by simp, by simp [statement_eq], by simp, by simpa using fits⟩
    rw [runStatements] at run
    rcases (Runs.bind_iff (statement.contained_run ..)).1 run with
      ⟨running, rest, result, rfl, runs, goes_on⟩ | ⟨fate, rfl, runs⟩
    · rcases (Runs.bind_iff (contained_record ..)).1 goes_on with
        ⟨telling, rest, jobs, rfl, tells, decides⟩ | ⟨fate, rfl, tells⟩
      · obtain ⟨opening, opened?, others, rfl, fits⟩ :=
          statement.exists_fits runs (tells.only (calls_record ..))
        simp only [Progress.after_eq] at decides
        cases fails : StatementResult.fails result with
        | true =>
          simp only [fails, if_true, pure_eq] at decides
          obtain ⟨rfl, -⟩ := runs_done_iff.1 decides
          simpa [Share.trace] using alone rfl fits
        | false =>
          simp only [fails, Bool.false_eq_true, if_false] at decides
          obtain ⟨shares, rfl, in_order, passed, fit⟩ := ih decides
          refine ⟨⟨statement, opening, opened?, others, .value result, telling⟩ :: shares,
            by simp [Share.trace], ?_, ?_, ?_⟩
          · simpa [List.cons_prefix_cons] using in_order
          · intro share member
            rcases shares with _ | ⟨next, shares⟩
            · simp at member
            · rcases List.mem_cons.1 member with rfl | member
              · exact ⟨result, rfl, fails⟩
              · exact passed share member
          · intro share member
            rcases List.mem_cons.1 member with rfl | member
            · exact fits
            · exact fit share member
      · obtain ⟨opening, opened?, others, rfl, fits⟩ :=
          statement.exists_fits runs (tells.only (calls_record ..))
        simpa [Share.trace] using alone rfl fits
    · obtain ⟨opening, opened?, others, rfl, fits⟩ := statement.exists_fits runs only_nil
      simpa [Share.trace] using alone rfl fits

/-- The files of a line are opened in the order of its statements, those of each one before it forks
and only when all statements before it have passed. So no others are created or emptied than the
outputs of those statements whose files could all be opened. -/
theorem touches_when_reached (line : Line) (settings : Settings) (jobs : JobTable)
    (events : List Event) (outcome : Outcome (Nat × Line × JobTable))
    (run : Runs (line.run settings jobs) events outcome) :
    ∃ shares : List Share, events = (shares.map Share.trace).flatten ∧
      shares.map Share.statement <+: line.statements ∧
      (∀ share ∈ shares.dropLast, share.passed) ∧
      (∀ share ∈ shares, share.Fits settings line.flags) ∧
      touched events = shares.filterMap Share.target? ∧
      ∀ share ∈ shares, ∀ error, share.opened? = some (.error error) →
        children share.trace = [] ∧ touched share.trace = [] ∧
          ∃ path cause, error = .redirect path cause ∧
            (share.statement.input = some path ∨ share.statement.output = some path) ∧
            FailsToOpen path cause share.opening := by
  have exists_shares : ∃ shares : List Share, events = (shares.map Share.trace).flatten ∧
      shares.map Share.statement <+: line.statements ∧
      (∀ share ∈ shares.dropLast, share.passed) ∧
      ∀ share ∈ shares, share.Fits settings line.flags := by
    unfold Line.run at run
    split at run
    · obtain ⟨rfl, -⟩ := runs_done_iff.1 run
      exact ⟨[], rfl, List.nil_prefix, by simp, by simp⟩
    · rcases (Runs.bind_iff (contained_runStatements ..)).1 run with
        ⟨running, rest, progress, rfl, runs, returns⟩ | ⟨fate, -, runs⟩
      · obtain ⟨rfl, -⟩ := runs_done_iff.1 returns
        rw [List.append_nil]
        exact Line.exists_shares runs
      · exact Line.exists_shares runs
  obtain ⟨shares, rfl, in_order, passed, fit⟩ := exists_shares
  refine ⟨shares, rfl, in_order, passed, fit, ?_, fun share member error refused => ?_⟩
  · clear run in_order passed
    induction shares with
    | nil => rfl
    | cons share shares ih =>
      rw [List.map_cons, List.flatten_cons, touched_append, (fit share (by simp)).touched_eq,
        ih fun other member => fit other (List.mem_cons_of_mem _ member)]
      cases found : share.target? <;> simp [found]
  · have fits := fit share member
    have opens := fits.opens
    rw [refused] at opens
    refine ⟨fits.children_eq_nil refused, ?_, opens.refused⟩
    rw [fits.touched_eq, Share.target?, refused]
    rfl

theorem touches_when_reached_missing_input :
    ∃ events outcome, Runs (Line.run ⟨[⟨⟨[], ⟨[['a']]⟩⟩, none, some ['o'], true⟩,
        ⟨⟨[], ⟨[['b']]⟩⟩, some ['i'], some ['p'], false⟩], {}⟩ {} {}) events outcome ∧
      touched events = ["o"] ∧
      ∃ shares : List Share, events = (shares.map Share.trace).flatten ∧
        shares.filterMap Share.target? = ["o"] := by
  let first : Statement := ⟨⟨[], ⟨[['a']]⟩⟩, none, some ['o'], true⟩
  let second : Statement := ⟨⟨[], ⟨[['b']]⟩⟩, some ['i'], some ['p'], false⟩
  let starting : List Event := [.answered (.openFile "o" Redirection.outputMode) (.ok 3),
    .answered .flush (.ok ()), .forked 7 [] .pending, .answered (.close 3) (.ok ())]
  let failing : List Event :=
    [.answered (.openFile "i" Redirection.inputMode) (.error .noEntry)]
  have starts : Runs (first.run {} {}) starting (.value (.ok (.background 7))) :=
    .call _ rfl <| .call _ rfl <| .fork 7 (.pending _ _) <| .call _ rfl <| .done _
  have fails : Runs (second.run {} {}) failing
      (.value (.error (.redirect ['i'] (.ofErrno .noEntry)))) :=
    .call _ rfl <| .done _
  obtain ⟨table, added⟩ : ∃ table, JobTable.add {} 7 first.text = .done (1, table) :=
    ⟨_, rfl⟩
  have tells : Runs (record {} first {} (.ok (.background 7)))
      [.answered (.print "[1] 7\n") (.ok ())] (.value table) := by
    rw [record, added]
    exact (Console.runs_print _).bind (Console.contained_print _) (.done _)
  obtain ⟨told, tells_error⟩ :=
    Console.exists_error {} (RunError.redirect ['i'] (.ofErrno .noEntry)).message
  have tells' : Runs (record {} second table (.error (.redirect ['i'] (.ofErrno .noEntry))))
      (told ++ []) (.value table) := tells_error.bind (Console.contained_error ..) (.done _)
  have performs : Performs {} {} {} [(first, .ok (.background 7)),
      (second, .error (.redirect ['i'] (.ofErrno .noEntry)))]
      (starting ++ [.answered (.print "[1] 7\n") (.ok ())] ++ (failing ++ (told ++ []) ++ [])) table :=
    .cons starts tells (.cons fails tells' (.nil _))
  have run : Runs (Line.run ⟨[first, second], {}⟩ {} {})
      (starting ++ [.answered (.print "[1] 7\n") (.ok ())] ++ (failing ++ (told ++ []) ++ []))
      (.value (1, ⟨[first, second], { error := true }⟩, table)) := by
    refine (runs_run_iff rfl).2 (.inl ⟨_, _, ?_, performs, rfl⟩)
    refine upToFailure_cons_iff.2 ⟨_, _, rfl, ?_⟩
    exact upToFailure_cons_iff.2 ⟨_, [], rfl, rfl⟩
  have touched_o : touched (starting ++ [.answered (.print "[1] 7\n") (.ok ())] ++
      (failing ++ (told ++ []) ++ [])) = ["o"] := by
    rw [touched_append, touched_append, touched_append, touched_append,
      (tells'.only (calls_record ..)).touched_eq_nil fun _ => Call.IsMessage.opensNothing]
    rfl
  obtain ⟨shares, parts, -, -, -, touched_eq, -⟩ := touches_when_reached _ _ _ _ _ run
  exact ⟨_, _, run, touched_o, shares, parts, touched_eq.symm.trans touched_o⟩

end Line

end PipelineShell
