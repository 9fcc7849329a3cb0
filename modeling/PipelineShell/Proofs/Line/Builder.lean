import PipelineShell.Proofs.Line.Leftover

namespace PipelineShell

inductive Operation
  | startNew
  | appendStatement (background : Bool)
  | appendArgument (text : Word) (isQuoted : Bool)
  | appendStage
  | setInput (path : Word)
  | setOutput (path : Word)
  | setBackground (background : Bool)
  | requestExit
  | markError
  | parse (text : Word)
deriving DecidableEq

namespace Operation

def apply : Operation → Line → Line
  | startNew, line => line.startNew
  | appendStatement background, line => line.appendStatement background
  | appendArgument text isQuoted, line => line.appendArgument text isQuoted
  | appendStage, line => line.appendStage
  | setInput path, line => line.setInput path
  | setOutput path, line => line.setOutput path
  | setBackground background, line => line.setBackground background
  | requestExit, line => line.requestExit
  | markError, line => line.markError
  | parse text, line => (line.parse text).line

def IsStep : Operation → Prop
  | startNew | markError | parse _ => False
  | _ => True

def AsksExit : Operation → Prop
  | requestExit => True
  | parse text => ∃ phrase : Grammar.LinePhrase,
      Token.scan text = some phrase.tokens ∧ phrase.ending.isExit = true
  | _ => False

end Operation

section GrowsAtEnd

variable {α : Type} {keeps : α → α → Prop}

/-- The elements before the last one stay, what is kept of the last one stays, and everything else
comes behind it. -/
def GrowsAtEnd (keeps : α → α → Prop) (before after : List α) : Prop :=
  ∀ front last, before = front ++ [last] →
    ∃ last' behind, after = front ++ last' :: behind ∧ keeps last last'

namespace GrowsAtEnd

theorem refl (reflexive : ∀ a, keeps a a) (xs : List α) : GrowsAtEnd keeps xs xs :=
  fun _ last split => ⟨last, [], split, reflexive last⟩

theorem trans {xs ys zs : List α} (grows : GrowsAtEnd keeps xs ys)
    (grows' : GrowsAtEnd keeps ys zs) (transitive : ∀ a b c, keeps a b → keeps b c → keeps a c) :
    GrowsAtEnd keeps xs zs := by
  intro front last split
  obtain ⟨middle, behind, rfl, kept⟩ := grows front last split
  -- Only what is last in `ys` can change again.
  rcases behind.eq_nil_or_concat with rfl | ⟨behind, other, rfl⟩
  · obtain ⟨last', behind', rfl, kept'⟩ := grows' front middle rfl
    exact ⟨last', behind', rfl, transitive _ _ _ kept kept'⟩
  · obtain ⟨other', behind', rfl, -⟩ := grows' (front ++ middle :: behind) other (by simp)
    exact ⟨middle, behind ++ other' :: behind', by simp, kept⟩

theorem concat (reflexive : ∀ a, keeps a a) (xs : List α) (x : α) :
    GrowsAtEnd keeps xs (xs ++ [x]) := by
  rintro front last rfl
  exact ⟨last, [x], by simp, reflexive last⟩

theorem onLast {f : α → α} (kept : ∀ a, keeps a (f a)) (xs : List α) :
    GrowsAtEnd keeps xs (PipelineShell.onLast f xs) := by
  rintro front last rfl
  exact ⟨f last, [], onLast_concat .., kept last⟩

end GrowsAtEnd

end GrowsAtEnd

def Stage.Grows (before after : Stage) : Prop := before.args <+: after.args

theorem Stage.Grows.refl (stage : Stage) : stage.Grows stage := List.prefix_rfl

theorem Stage.Grows.trans {first second third : Stage} (grows : first.Grows second)
    (grows' : second.Grows third) : first.Grows third :=
  List.IsPrefix.trans grows grows'

theorem Stage.grows_push (stage : Stage) (arg : Word) : stage.Grows (stage.push arg) :=
  List.prefix_append ..

def Pipeline.Grows (before after : Pipeline) : Prop :=
  GrowsAtEnd Stage.Grows before.stages after.stages

namespace Pipeline

theorem Grows.refl (pipeline : Pipeline) : pipeline.Grows pipeline := by
  unfold Grows
  exact .refl Stage.Grows.refl _

theorem Grows.trans {first second third : Pipeline} (grows : first.Grows second)
    (grows' : second.Grows third) : first.Grows third := by
  unfold Grows at *
  exact grows.trans grows' fun _ _ _ => Stage.Grows.trans

theorem grows_push (pipeline : Pipeline) (arg : Word) : pipeline.Grows (pipeline.push arg) := by
  have pushed : (pipeline.push arg).stages = onLast (·.push arg) pipeline.stages := by
    rw [stages, stages, onLast_concat]
    rfl
  unfold Grows
  rw [pushed]
  exact .onLast (·.grows_push arg) _

theorem grows_extend (pipeline : Pipeline) : pipeline.Grows pipeline.extend := by
  unfold Grows
  exact .concat Stage.Grows.refl _ _

end Pipeline

def Statement.Grows (before after : Statement) : Prop := before.pipeline.Grows after.pipeline

theorem Statement.Grows.refl (statement : Statement) : statement.Grows statement :=
  Pipeline.Grows.refl _

theorem Statement.Grows.trans {first second third : Statement} (grows : first.Grows second)
    (grows' : second.Grows third) : first.Grows third :=
  Pipeline.Grows.trans grows grows'

namespace Line

def Grows (before after : Line) : Prop :=
  GrowsAtEnd Statement.Grows before.statements after.statements

variable (line : Line)

theorem Grows.refl : line.Grows line := by
  unfold Grows
  exact .refl Statement.Grows.refl _

theorem Grows.trans {first second third : Line} (grows : first.Grows second)
    (grows' : second.Grows third) : first.Grows third := by
  unfold Grows at *
  exact grows.trans grows' fun _ _ _ => Statement.Grows.trans

theorem grows_appendStatement (background : Bool) : line.Grows (line.appendStatement background) := by
  unfold Grows
  exact .concat Statement.Grows.refl _ _

theorem grows_orNew : line.Grows line.orNew := by
  unfold orNew
  split
  · exact line.grows_appendStatement false
  · exact .refl line

theorem grows_modifyCurrent {f : Statement → Statement}
    (grows : ∀ statement : Statement, statement.Grows (f statement)) :
    line.Grows (line.modifyCurrent f) := by
  unfold Grows
  exact .onLast grows _

theorem grows_modifyPipeline {f : Pipeline → Pipeline}
    (grows : ∀ pipeline : Pipeline, pipeline.Grows (f pipeline)) :
    line.Grows (line.modifyPipeline f) :=
  line.grows_orNew.trans (line.orNew.grows_modifyCurrent fun statement => grows statement.pipeline)

end Line

theorem Operation.IsStep.grows {operation : Operation} (step : operation.IsStep) (line : Line) :
    line.Grows (operation.apply line) := by
  cases operation with
  | startNew | markError | parse => cases step
  | appendStatement background => exact line.grows_appendStatement background
  | appendArgument text isQuoted => exact line.grows_modifyPipeline fun pipeline => pipeline.grows_push _
  | appendStage => exact line.grows_modifyPipeline Pipeline.grows_extend
  | setInput | setOutput | setBackground => exact line.grows_modifyCurrent fun _ => Pipeline.Grows.refl _
  | requestExit => exact .refl line

namespace Line

def after (line : Line) (operations : List Operation) : Line :=
  operations.foldl (fun line operation => operation.apply line) line

@[simp] theorem after_nil (line : Line) : line.after [] = line := rfl

@[simp] theorem after_cons (line : Line) (operation : Operation) (operations : List Operation) :
    line.after (operation :: operations) = (operation.apply line).after operations := rfl

@[simp] theorem after_append (line : Line) (first second : List Operation) :
    line.after (first ++ second) = (line.after first).after second :=
  List.foldl_append

theorem grows_after (line : Line) {operations : List Operation}
    (steps : ∀ operation ∈ operations, operation.IsStep) : line.Grows (line.after operations) := by
  induction operations generalizing line with
  | nil => exact .refl line
  | cons operation operations ih =>
    obtain ⟨step, steps⟩ := List.forall_mem_cons.1 steps
    exact (step.grows line).trans (ih _ steps)

def Reaches (line line' : Line) : Prop :=
  ∃ operations : List Operation, (∀ operation ∈ operations, operation.IsStep) ∧
    line' = line.after operations

theorem Reaches.refl (line : Line) : line.Reaches line := ⟨[], nofun, rfl⟩

theorem Reaches.step {line line' : Line} (operation : Operation) (step : operation.IsStep)
    (reaches : (operation.apply line).Reaches line') : line.Reaches line' := by
  obtain ⟨operations, steps, rfl⟩ := reaches
  exact ⟨operation :: operations, List.forall_mem_cons.2 ⟨step, steps⟩, rfl⟩

theorem Reaches.opened {line line' : Line} {isOpen : Bool}
    (reaches : (line.opened isOpen).Reaches line') : line.Reaches line' := by
  cases isOpen with
  | true => exact reaches
  | false => exact .step (.appendStatement false) trivial reaches

theorem Reaches.redirect {line line' : Line} {op : Operator} {path : Word}
    (reaches : (line.redirect op path).Reaches line') : line.Reaches line' := by
  unfold Line.redirect at reaches
  split at reaches
  · exact .step (.setInput path) trivial reaches
  · exact .step (.setOutput path) trivial reaches

theorem reaches_parseTokens (line : Line) (isOpen : Bool) (tokens : List Token) :
    line.Reaches (line.parseTokens isOpen tokens).line := by
  fun_induction parseTokens line isOpen tokens with
  | case1 | case2 | case6 | case8 | case10 | case14 | case17 => exact .refl _
  | case3 line => exact .step .requestExit trivial (.refl _)
  | case4 line isOpen text rest _ ih =>
    exact .opened (.step (.appendArgument text false) trivial ih)
  | case5 line isOpen mark body rest ih =>
    exact .opened (.step (.appendArgument _ true) trivial ih)
  | case7 line isOpen rest _ ih => exact .step .appendStage trivial ih
  | case9 line isOpen rest _ ih => exact ih
  | case11 line isOpen rest _ ih => exact .step (.setBackground true) trivial ih
  | case12 _ _ _ _ ih | case13 _ _ _ _ _ ih => exact .opened (.redirect ih)
  | case15 _ _ _ _ ih | case16 _ _ _ _ _ ih => exact .opened (.redirect ih)

theorem reaches_parse (line : Line) (text : Word) : line.Reaches (line.parse text).line := by
  unfold parse
  split
  · exact line.reaches_parseTokens ..
  · exact .refl line

end Line

namespace Operation

theorem grows {operation : Operation} (keeps : operation ≠ .startNew) (line : Line) :
    line.Grows (operation.apply line) := by
  by_cases step : operation.IsStep
  · exact step.grows line
  cases operation with
  | startNew => exact absurd rfl keeps
  | markError => exact .refl line
  | parse text =>
    obtain ⟨operations, steps, reached⟩ := line.reaches_parse text
    rw [apply, reached]
    exact line.grows_after steps
  | _ => exact absurd trivial step

theorem exit_parse_iff (line : Line) (text : Word) :
    (line.parse text).line.flags.exit = true ↔
      (parse text).AsksExit ∨ line.flags.exit = true := by
  constructor
  · intro asked
    rcases Grammar.flags_parse line text with same | ⟨accepted, -⟩
    · exact .inr (same ▸ asked)
    · cases scanned : Token.scan text with
      | none => simp [Line.parse, scanned] at accepted
      | some tokens =>
        rw [Grammar.parse_of_scan line scanned] at accepted asked
        obtain ⟨phrase, rfl⟩ := (Grammar.accepts_iff_isLine ..).1 accepted
        rw [Grammar.Site.read_line] at asked
        rcases Bool.or_eq_true_iff.1 asked with before | exits
        · exact .inr before
        · exact .inl ⟨phrase, scanned, exits⟩
  · rintro (⟨phrase, scanned, exits⟩ | before)
    · rw [Grammar.parse_of_scan line scanned, Grammar.Site.read_line, exits]
      simp
    · rcases Grammar.flags_parse line text with same | ⟨-, exits⟩
      · exact same ▸ before
      · rw [exits]

theorem error_parse (line : Line) (text : Word) :
    (line.parse text).line.flags.error = line.flags.error := by
  rcases Grammar.flags_parse line text with same | ⟨-, exits⟩
  · rw [same]
  · rw [exits]

theorem flags_modifyPipeline (line : Line) (f : Pipeline → Pipeline) :
    (line.modifyPipeline f).flags = line.flags := by
  rw [Line.modifyPipeline, Line.modifyCurrent, Line.orNew]
  split <;> rfl

theorem flags_apply (operation : Operation) (line : Line) :
    (operation.apply line).flags =
      match operation with
      | startNew => {}
      | requestExit => { line.flags with exit := true }
      | markError => { line.flags with error := true }
      | parse text => (line.parse text).line.flags
      | _ => line.flags := by
  cases operation with
  | appendArgument | appendStage => exact flags_modifyPipeline ..
  | _ => rfl

theorem error_apply_iff (operation : Operation) (line : Line) :
    (operation.apply line).flags.error = true ↔
      operation = .markError ∨ operation ≠ .startNew ∧ line.flags.error = true := by
  rw [flags_apply]
  cases operation with
  | parse text => simp [error_parse]
  | _ => simp

theorem exit_apply_iff (operation : Operation) (line : Line) :
    (operation.apply line).flags.exit = true ↔
      operation.AsksExit ∨ operation ≠ .startNew ∧ line.flags.exit = true := by
  rw [flags_apply]
  cases operation with
  | parse text => simpa using exit_parse_iff line text
  | _ => simp [AsksExit]

end Operation

end PipelineShell
