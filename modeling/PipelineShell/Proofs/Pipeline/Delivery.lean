import Mathlib.Algebra.BigOperators.Group.Finset.Basic
import Mathlib.Algebra.Order.BigOperators.Group.Finset
import PipelineShell.Proofs.Pipeline.Dataflow

namespace PipelineShell.Dataflow

variable {net : Network} {pipes : List Name} {bytes : Bytes} {state state' : State} {i j : Nat}

/-! ## What a step moves -/

structure Moves (pipes : List Name) (i : Nat) (state state' : State) (got put : Bytes) : Prop where
  others : ∀ j ≠ i, state'.progress j = state.progress j
  taken : (state'.progress i).taken = (state.progress i).taken ++ got
  given : (state'.progress i).given = (state.progress i).given ++ put
  before : state.contents (link pipes i) = got ++ state'.contents (link pipes i)
  behind : state'.contents (link pipes (i + 1)) = state.contents (link pipes (i + 1)) ++ put
  elsewhere : ∀ stream, stream ≠ link pipes i → stream ≠ link pipes (i + 1) →
    state'.contents stream = state.contents stream

theorem moves_nothing {progress : Progress} (taken : progress.taken = (state.progress i).taken)
    (given : progress.given = (state.progress i).given) :
    Moves pipes i state (state.advance i progress) [] [] where
  others _ other := state.advance_progress_of_ne progress other
  taken := by simp [taken]
  given := by simp [given]
  before := rfl
  behind := (List.append_nil _).symm
  elsewhere _ _ _ := rfl

theorem Step.moves (row : Row net pipes) (step : Step net i state state') :
    ∃ got put, Moves pipes i state state' got put := by
  have apart : i ≤ pipes.length → link pipes (i + 1) ≠ link pipes i := by
    intro le same
    have := row.link_inj (by omega) (by omega) same
    omega
  cases step with
  | @take stream chunk left next active asks reads held nonempty conforms =>
    have le := row.le_of_active active
    obtain rfl : link pipes i = stream := Option.some.inj ((row.reads_eq le).symm.trans reads)
    refine ⟨chunk, [], ?_, ?_, ?_, ?_, ?_, ?_⟩
    · exact fun j other => State.advance_progress_of_ne _ _ other
    · simp [Progress.took]
    · simp [Progress.took]
    · simpa using held
    · simp [State.fill_contents_of_ne state left (apart le)]
    · exact fun stream other _ => state.fill_contents_of_ne left other
  | sawEnd => exact ⟨[], [], moves_nothing rfl rfl⟩
  | @give stream chunk left next active asks writes nonempty room conforms =>
    have le := row.le_of_active active
    obtain rfl : link pipes (i + 1) = stream := Option.some.inj ((row.writes_eq le).symm.trans writes)
    refine ⟨[], chunk, ?_, ?_, ?_, ?_, ?_, ?_⟩
    · exact fun j other => State.advance_progress_of_ne _ _ other
    · simp [Progress.gave]
    · simp [Progress.gave]
    · simp [State.fill_contents_of_ne state _ (apart le).symm]
    · simp
    · exact fun stream _ other => state.fill_contents_of_ne _ other
  | broken => exact ⟨[], [], moves_nothing rfl rfl⟩
  | stop => exact ⟨[], [], moves_nothing rfl rfl⟩

theorem Step.active (step : Step net i state state') : net.Active state i := by
  cases step <;> assumption

theorem Step.running (step : Step net i state state') : ¬ state.Finished i := by
  intro finished
  cases step with
  | take _ asks | sawEnd _ asks | give _ asks | broken _ asks | stop _ asks =>
    rw [State.Finished, asks] at finished
    cases finished

/-! ## The invariant -/

/-- What is known of each program by itself. -/
structure Right (net : Network) (bytes : Bytes) (i : Nat) (progress : Progress) : Prop where
  conforms : progress.Conforms (net.function i)
  given : progress.given <+: net.full bytes (i + 1)
  ended : progress.ended = true → progress.taken = net.full bytes i

def State.produced (bytes : Bytes) (state : State) : Nat → Bytes
  | 0 => bytes
  | i + 1 => (state.progress i).given

structure Sound (net : Network) (pipes : List Name) (bytes : Bytes) (state : State) : Prop where
  right : ∀ i ≤ pipes.length, Right net bytes i (state.progress i)
  /-- Nothing is lost on the way. -/
  balance : ∀ i ≤ pipes.length + 1,
    (state.progress i).taken ++ state.contents (link pipes i) = state.produced bytes i
  idle : (state.progress (pipes.length + 1)).taken = []
  finished : ∀ i ≤ pipes.length, state.Finished i →
    (state.progress i).given = net.full bytes (i + 1) ∨
      i < pipes.length ∧ state.Finished (i + 1)
  turns : net.scheduling = .sequential → ∀ i j, i < j → ¬ state.Finished i →
    (state.progress j).taken = []

namespace Sound

theorem produced_prefix (sound : Sound net pipes bytes state) (le : i ≤ pipes.length + 1) :
    state.produced bytes i <+: net.full bytes i := by
  cases i with
  | zero => exact List.prefix_rfl
  | succ i => exact (sound.right i (Nat.le_of_succ_le_succ le)).given

theorem taken_prefix (sound : Sound net pipes bytes state) (le : i ≤ pipes.length) :
    (state.progress i).taken <+: net.full bytes i := by
  have all := sound.balance i (Nat.le_succ_of_le le)
  exact (all ▸ List.prefix_append _ _).trans (sound.produced_prefix (Nat.le_succ_of_le le))

theorem exists_rest (sound : Sound net pipes bytes state) (le : i ≤ pipes.length) :
    ∃ rest, (state.progress i).taken ++ rest = net.full bytes i ∧
      ((state.progress i).ended = true → rest = []) := by
  obtain ⟨rest, all⟩ := sound.taken_prefix le
  refine ⟨rest, all, fun ended => ?_⟩
  rw [← (sound.right i le).ended ended] at all
  simpa using all

theorem asked_prefix (sound : Sound net pipes bytes state) (le : i ≤ pipes.length) {asked : Bytes}
    (asks : (state.progress i).asks = some (.write asked)) :
    (state.progress i).given ++ asked <+: net.full bytes (i + 1) := by
  obtain ⟨rest, all, ended⟩ := sound.exists_rest le
  obtain ⟨-, allowed⟩ := (sound.right i le).conforms _ asks
  have extends_ := allowed rest ended
  rw [all, ← net.full_succ] at extends_
  exact extends_

theorem given_eq_of_stop (sound : Sound net pipes bytes state) (le : i ≤ pipes.length)
    (asks : (state.progress i).asks = some .stop) :
    (state.progress i).given = net.full bytes (i + 1) := by
  obtain ⟨rest, all, ended⟩ := sound.exists_rest le
  have allowed := (sound.right i le).conforms _ asks rest ended
  rw [allowed, all, net.full_succ]

theorem not_ended_of_read (sound : Sound net pipes bytes state) (le : i ≤ pipes.length)
    (asks : (state.progress i).asks = some .read) : (state.progress i).ended = false :=
  (sound.right i le).conforms _ asks

theorem taken_eq_of_dry (row : Row net pipes) (sound : Sound net pipes bytes state)
    (le : i ≤ pipes.length) (running : ¬ state.Finished i)
    (empty : state.contents (link pipes i) = []) (dry : net.Dry state (link pipes i)) :
    (state.progress i).taken = net.full bytes i := by
  have all := sound.balance i (Nat.le_succ_of_le le)
  rw [empty, List.append_nil] at all
  cases i with
  | zero => exact all
  | succ i =>
    have at_i := List.getElem?_eq_getElem (Nat.lt_of_succ_le le)
    rw [link_succ at_i] at dry
    have writer := (row.released_writeEnd_iff at_i).1 dry
    rcases sound.finished i (Nat.le_of_succ_le le) writer with complete | ⟨-, left⟩
    · exact all.trans complete
    · exact absurd left running

theorem initial (initial : Initial net bytes state) :
    Sound net pipes bytes state := by
  have taken : ∀ i, (state.progress i).taken = [] := by
    intro i
    obtain ⟨request, same⟩ := initial.fresh i
    rw [same]
  have given : ∀ i, (state.progress i).given = [] := by
    intro i
    obtain ⟨request, same⟩ := initial.fresh i
    rw [same]
  refine ⟨fun i _ => ⟨initial.conforms i, ?_, ?_⟩, ?_, taken _, ?_, fun _ _ j _ _ => taken j⟩
  · rw [given]
    exact List.nil_prefix
  · obtain ⟨request, same⟩ := initial.fresh i
    rw [same]
    nofun
  · intro i le
    rw [taken, initial.contents]
    cases i with
    | zero => rfl
    | succ i => rw [if_neg link_succ_ne_source, State.produced, given]; rfl
  · intro i _ finished
    obtain ⟨request, same⟩ := initial.fresh i
    rw [State.Finished, same] at finished
    cases finished

end Sound

theorem Step.right (row : Row net pipes) (sound : Sound net pipes bytes state)
    (step : Step net i state state') : Right net bytes i (state'.progress i) := by
  have le := row.le_of_active step.active
  have running := step.running
  obtain ⟨-, given, ended⟩ := sound.right i le
  cases step with
  | take active asks reads held nonempty conforms =>
    rw [State.advance_progress]
    refine ⟨conforms, given, fun now => ?_⟩
    rw [Progress.took, sound.not_ended_of_read le asks] at now
    cases now
  | sawEnd active asks reads empty dry conforms =>
    rw [State.advance_progress]
    refine ⟨conforms, given, fun _ => ?_⟩
    cases (row.reads_eq le).symm.trans reads
    exact sound.taken_eq_of_dry row le running empty dry
  | @give stream chunk left next active asks writes nonempty room conforms =>
    rw [State.advance_progress]
    refine ⟨conforms, ?_, ended⟩
    have asked := sound.asked_prefix le asks
    rw [← List.append_assoc] at asked
    exact (List.prefix_append _ left).trans asked
  | broken | stop =>
    rw [State.advance_progress]
    exact ⟨nofun, given, ended⟩

theorem Step.finished_self (row : Row net pipes) (sound : Sound net pipes bytes state)
    (step : Step net i state state') (finished : state'.Finished i) :
    (state'.progress i).given = net.full bytes (i + 1) ∨
      i < pipes.length ∧ state.Finished (i + 1) := by
  have le := row.le_of_active step.active
  rw [State.Finished] at finished
  cases step with
  | take | sawEnd | give =>
    rw [State.advance_progress] at finished
    cases finished
  | @broken pipe asked active asks writes released =>
    right
    have same := Option.some.inj ((row.writes_eq le).symm.trans writes)
    rcases Nat.lt_or_eq_of_le le with below | rfl
    · have at_i := List.getElem?_eq_getElem below
      rw [link_succ at_i] at same
      cases same
      exact ⟨below, (row.released_readEnd_iff at_i).1 released⟩
    · rw [link_last] at same
      cases same
  | stop active asks =>
    rw [State.advance_progress]
    exact .inl (sound.given_eq_of_stop le asks)

theorem Moves.balance {got put : Bytes} (row : Row net pipes) (le_i : i ≤ pipes.length)
    (moves : Moves pipes i state state' got put) (le : j ≤ pipes.length + 1)
    (balance : (state.progress j).taken ++ state.contents (link pipes j) =
      state.produced bytes j) :
    (state'.progress j).taken ++ state'.contents (link pipes j) = state'.produced bytes j := by
  by_cases reader : j = i
  · subst reader
    have same : state'.produced bytes j = state.produced bytes j := by
      cases j with
      | zero => rfl
      | succ j => exact congrArg Progress.given (moves.others j (by omega))
    rw [same, ← balance, moves.taken, moves.before, List.append_assoc]
  rw [moves.others j reader]
  by_cases writer : j = i + 1
  · subst writer
    calc _ = ((state.progress (i + 1)).taken ++ state.contents (link pipes (i + 1))) ++ put := by
          rw [moves.behind, List.append_assoc]
      _ = (state.progress i).given ++ put := by rw [balance]; rfl
      _ = _ := moves.given.symm
  · have same : state'.produced bytes j = state.produced bytes j := by
      cases j with
      | zero => rfl
      | succ j => exact congrArg Progress.given (moves.others j (by omega))
    have unchanged := moves.elsewhere (link pipes j)
      (fun same => reader (row.link_inj le (by omega) same))
      (fun same => writer (row.link_inj le (by omega) same))
    rw [unchanged, balance, same]

/-- What every step preserves. -/
theorem Step.sound (row : Row net pipes) (sound : Sound net pipes bytes state)
    (step : Step net i state state') : Sound net pipes bytes state' := by
  have le := row.le_of_active step.active
  obtain ⟨got, put, moves⟩ := step.moves row
  have stays : ∀ j, state.Finished j → state'.Finished j := by
    intro j finished
    have other : j ≠ i := by
      rintro rfl
      exact step.running finished
    rw [State.Finished, moves.others j other]
    exact finished
  refine ⟨fun j le_j => ?_, fun j le_j => moves.balance row le le_j (sound.balance j le_j), ?_,
    fun j le_j finished => ?_, fun sequential j k lt running => ?_⟩
  · by_cases same : j = i
    · exact same ▸ step.right row sound
    · rw [moves.others j same]
      exact sound.right j le_j
  · rw [moves.others _ (by omega)]
    exact sound.idle
  · by_cases same : j = i
    · subst same
      exact (step.finished_self row sound finished).imp_right (.imp_right (stays _))
    · rw [State.Finished, moves.others j same] at finished
      rw [moves.others j same]
      exact (sound.finished j le_j finished).imp_right (.imp_right (stays _))
  · have was_running := mt (stays j) running
    by_cases same : k = i
    · subst same
      exact absurd (step.active.2 sequential j lt) was_running
    · rw [moves.others k same]
      exact sound.turns sequential j k lt was_running

theorem Reachable.sound (row : Row net pipes) (reachable : Reachable net bytes state) :
    Sound net pipes bytes state := by
  induction reachable with
  | initial initial => exact .initial initial
  | step _ step ih => exact step.sound row ih

/-! ## No program waits for ever -/

theorem Progress.exists_allowed {f : Bytes → Bytes} {progress : Progress}
    (ended : progress.ended = true → progress.given <+: f progress.taken) :
    ∃ request, progress.Allows f request := by
  cases at_end : progress.ended with
  | false => exact ⟨.read, at_end⟩
  | true =>
    obtain ⟨missing, complete⟩ := ended at_end
    by_cases nothing : missing = []
    · refine ⟨.stop, fun rest no_rest => ?_⟩
      rw [no_rest at_end, List.append_nil, ← complete, nothing, List.append_nil]
    · refine ⟨.write missing, nothing, fun rest no_rest => ?_⟩
      rw [no_rest at_end, List.append_nil, ← complete]

theorem Progress.exists_next (f : Bytes → Bytes) (progress : Progress)
    (ended : progress.ended = true → progress.given <+: f progress.taken) :
    ∃ next, Conforms f { progress with asks := some next } := by
  obtain ⟨next, allowed⟩ := exists_allowed ended
  refine ⟨next, ?_⟩
  rintro _ ⟨⟩
  exact allowed

theorem exists_take (row : Row net pipes) (sound : Sound net pipes bytes state)
    (active : net.Active state i) (asks : (state.progress i).asks = some .read)
    (nonempty : state.contents (link pipes i) ≠ []) : ∃ state', Step net i state state' := by
  have le := row.le_of_active active
  have not_ended := sound.not_ended_of_read le asks
  have ended : ¬ (state.progress i).ended = true := by simp [not_ended]
  obtain ⟨next, conforms⟩ := Progress.exists_next (net.function i)
    { state.progress i with taken := (state.progress i).taken ++ state.contents (link pipes i) }
    (absurd · ended)
  exact ⟨_, .take active asks (row.reads_eq le) (List.append_nil _).symm nonempty conforms⟩

theorem exists_sawEnd (row : Row net pipes) (sound : Sound net pipes bytes state)
    (active : net.Active state i) (asks : (state.progress i).asks = some .read)
    (running : ¬ state.Finished i) (empty : state.contents (link pipes i) = [])
    (before : ∀ j < i, state.Finished j) : ∃ state', Step net i state state' := by
  have le := row.le_of_active active
  have dry : net.Dry state (link pipes i) := by
    cases i with
    | zero => trivial
    | succ i =>
      have at_i := List.getElem?_eq_getElem (Nat.lt_of_succ_le le)
      rw [link_succ at_i]
      exact (row.released_writeEnd_iff at_i).2 (before i (Nat.lt_succ_self i))
  have given := (sound.right i le).given
  rw [net.full_succ, ← sound.taken_eq_of_dry row le running empty dry] at given
  obtain ⟨next, conforms⟩ := Progress.exists_next (net.function i)
    { state.progress i with ended := true } fun _ => given
  exact ⟨_, .sawEnd active asks (row.reads_eq le) empty dry conforms⟩

theorem exists_give (row : Row net pipes) (sound : Sound net pipes bytes state)
    (active : net.Active state i) {chunk left : Bytes}
    (asks : (state.progress i).asks = some (.write (chunk ++ left))) (nonempty : chunk ≠ [])
    (room : net.Room state chunk.length (link pipes (i + 1))) :
    ∃ state', Step net i state state' := by
  have le := row.le_of_active active
  obtain ⟨-, allowed⟩ := (sound.right i le).conforms _ asks
  have gives : (state.progress i).given ++ chunk <+: net.function i (state.progress i).taken := by
    have whole := allowed [] fun _ => rfl
    rw [List.append_nil, ← List.append_assoc] at whole
    exact (List.prefix_append _ left).trans whole
  obtain ⟨next, conforms⟩ := Progress.exists_next (net.function i)
    { state.progress i with given := (state.progress i).given ++ chunk } fun _ => gives
  exact ⟨_, .give active asks (row.writes_eq le) nonempty room conforms⟩

def Network.Fits (net : Network) (pipes : List Name) (bytes : Bytes) : Prop :=
  net.scheduling = .sequential → ∀ i < pipes.length,
    (net.full bytes (i + 1)).length ≤ net.capacity

theorem Sound.room_of_sequential (sound : Sound net pipes bytes state)
    (fits : net.Fits pipes bytes) (sequential : net.scheduling = .sequential)
    (below : i < pipes.length) (running : ¬ state.Finished i) {asked : Bytes}
    (asks : (state.progress i).asks = some (.write asked)) (nonempty : asked ≠ []) :
    (state.contents (link pipes (i + 1))).length < net.capacity := by
  have all := sound.balance (i + 1) (by omega)
  rw [sound.turns sequential i (i + 1) (Nat.lt_succ_self i) running, List.nil_append] at all
  have asked_le := (sound.asked_prefix (Nat.le_of_lt below) asks).length_le
  have full_le := fits sequential i below
  have positive := List.length_pos_iff.2 nonempty
  rw [List.length_append] at asked_le
  rw [all, State.produced]
  omega

theorem exists_step {i : Nat} (row : Row net pipes) (sound : Sound net pipes bytes state)
    (positive : 0 < net.capacity) (fits : net.Fits pipes bytes) (active : net.Active state i)
    (running : ¬ state.Finished i)
    (readable : state.contents (link pipes i) ≠ [] ∨ ∀ j < i, state.Finished j) :
    ∃ k state', Step net k state state' := by
  have le := row.le_of_active active
  obtain ⟨request, asks⟩ := Option.ne_none_iff_exists'.1 running
  cases request with
  | read =>
    by_cases empty : state.contents (link pipes i) = []
    · have before := readable.resolve_left (not_not.2 empty)
      exact ⟨i, exists_sawEnd row sound active asks running empty before⟩
    · exact ⟨i, exists_take row sound active asks empty⟩
  | stop => exact ⟨i, _, .stop active asks⟩
  | write asked =>
    obtain ⟨nonempty, -⟩ := (sound.right i le).conforms _ asks
    rcases Nat.lt_or_eq_of_le le with below | rfl
    · have at_i := List.getElem?_eq_getElem below
      by_cases left : state.Finished (i + 1)
      · have writes := row.writes_eq le
        rw [link_succ at_i] at writes
        exact ⟨i, _, .broken active asks writes ((row.released_readEnd_iff at_i).2 left)⟩
      by_cases room : (state.contents (link pipes (i + 1))).length < net.capacity
      · obtain ⟨byte, rest, rfl⟩ := List.exists_cons_of_ne_nil nonempty
        have asks_first : (state.progress i).asks = some (.write ([byte] ++ rest)) := asks
        refine ⟨i, exists_give row sound active asks_first (List.cons_ne_nil _ _) ?_⟩
        rw [link_succ at_i] at room ⊢
        exact ⟨room, mt (row.released_readEnd_iff at_i).1 left⟩
      · -- The pipe is full, so the next program can read.
        have concurrent : net.scheduling ≠ .sequential := fun sequential =>
          room (sound.room_of_sequential fits sequential below running asks nonempty)
        have active_next : net.Active state (i + 1) := by
          refine ⟨?_, fun sequential => absurd sequential concurrent⟩
          rw [row.wired.length_eq]
          omega
        have held : state.contents (link pipes (i + 1)) ≠ [] := by
          intro empty
          rw [empty] at room
          exact room positive
        exact exists_step row sound positive fits active_next left (.inl held)
    · have asks_all : (state.progress pipes.length).asks = some (.write (asked ++ [])) := by
        rw [asks, List.append_nil]
      refine ⟨pipes.length, exists_give row sound active asks_all nonempty ?_⟩
      rw [link_last]
      trivial
termination_by pipes.length - i

theorem finished_of_stuck (row : Row net pipes) (sound : Sound net pipes bytes state)
    (positive : 0 < net.capacity) (fits : net.Fits pipes bytes)
    (stuck : ∀ i state', ¬ Step net i state state') (below : i < net.images.length) :
    state.Finished i := by
  induction i using Nat.strong_induction_on with
  | _ i ih =>
    have before : ∀ j < i, state.Finished j := fun j lt => ih j lt (lt.trans below)
    by_contra running
    obtain ⟨k, state', step⟩ :=
      exists_step row sound positive fits ⟨below, fun _ => before⟩ running (.inr before)
    exact stuck k state' step

/-! ## Every run ends -/

/-- A bound on how often a program can be served. -/
def Progress.work (read written : Bytes) (progress : Progress) : Nat :=
  (read.length - progress.taken.length) + (written.length - progress.given.length) +
    (!progress.ended).toNat + progress.asks.isSome.toNat

def work (net : Network) (pipes : List Name) (bytes : Bytes) (state : State) : Nat :=
  ∑ i ∈ Finset.range (pipes.length + 1),
    (state.progress i).work (net.full bytes i) (net.full bytes (i + 1))

theorem Step.work_self_lt (row : Row net pipes) (sound : Sound net pipes bytes state)
    (step : Step net i state state') :
    (state'.progress i).work (net.full bytes i) (net.full bytes (i + 1)) <
      (state.progress i).work (net.full bytes i) (net.full bytes (i + 1)) := by
  have le := row.le_of_active step.active
  have later := step.sound row sound
  have taken_le := (later.taken_prefix le).length_le
  have given_le := (later.right i le).given.length_le
  cases step with
  | take active asks reads held nonempty =>
    have some_ := List.length_pos_iff.2 nonempty
    rw [State.advance_progress] at taken_le ⊢
    simp only [Progress.took, List.length_append] at taken_le
    simp only [Progress.work, Progress.took, asks, List.length_append, Option.isSome_some]
    omega
  | sawEnd active asks =>
    rw [State.advance_progress]
    simp [Progress.work, Progress.sawEnd, asks, sound.not_ended_of_read le asks]
  | give active asks writes nonempty =>
    have some_ := List.length_pos_iff.2 nonempty
    rw [State.advance_progress] at given_le ⊢
    simp only [Progress.gave, List.length_append] at given_le
    simp only [Progress.work, Progress.gave, asks, List.length_append, Option.isSome_some]
    omega
  | broken active asks | stop active asks =>
    rw [State.advance_progress]
    simp [Progress.work, Progress.finish, asks]

theorem Step.work_lt (row : Row net pipes) (sound : Sound net pipes bytes state)
    (step : Step net i state state') : work net pipes bytes state' < work net pipes bytes state := by
  obtain ⟨_, _, moves⟩ := step.moves row
  have decreases := step.work_self_lt row sound
  refine Finset.sum_lt_sum (fun j _ => ?_) ⟨i, ?_, decreases⟩
  · by_cases same : j = i
    · exact same ▸ decreases.le
    · rw [moves.others j same]
  · exact Finset.mem_range.2 (Nat.lt_succ_of_le (row.le_of_active step.active))

theorem not_forever (row : Row net pipes) (run : Nat → State) (initial : Initial net bytes (run 0)) :
    ¬ ∀ k, ∃ i, Step net i (run k) (run (k + 1)) := by
  intro steps
  have spent : ∀ k, Sound net pipes bytes (run k) ∧
      work net pipes bytes (run k) + k ≤ work net pipes bytes (run 0) := by
    intro k
    induction k with
    | zero => exact ⟨.initial initial, Nat.le_refl _⟩
    | succ k ih =>
      obtain ⟨sound, le⟩ := ih
      obtain ⟨i, step⟩ := steps k
      have lt := step.work_lt row sound
      exact ⟨step.sound row sound, by omega⟩
  have beyond := (spent (work net pipes bytes (run 0) + 1)).2
  omega

theorem Row.computes (row : Row net pipes) (positive : 0 < net.capacity)
    (fits : net.Fits pipes bytes) : Computes net bytes (net.full bytes (pipes.length + 1)) where
  starts := by
    refine ⟨⟨fun _ => { asks := some .read }, fun stream => if stream = .source then bytes else []⟩,
      fun i => ⟨.read, rfl⟩, fun i => ?_, fun _ => rfl⟩
    rintro _ ⟨⟩
    rfl
  ends run initial := not_forever row run initial
  delivered state reachable stuck := by
    have sound := reachable.sound row
    have finished : ∀ i < net.images.length, state.Finished i := fun i below =>
      finished_of_stuck row sound positive fits stuck below
    have last_finished : state.Finished pipes.length := by
      apply finished
      rw [row.wired.length_eq]
      omega
    have all := sound.balance (pipes.length + 1) (Nat.le_refl _)
    rw [sound.idle, List.nil_append, link_last, State.produced] at all
    rcases sound.finished pipes.length (Nat.le_refl _) last_finished with complete | ⟨below, -⟩
    · exact ⟨all.trans complete, finished⟩
    · exact absurd below (Nat.lt_irrefl _)

end PipelineShell.Dataflow
