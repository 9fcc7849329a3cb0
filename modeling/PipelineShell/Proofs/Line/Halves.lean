import PipelineShell.Proofs.Line.Seam
import PipelineShell.Proofs.Line.ShortCircuit

namespace PipelineShell

open PipelineShell.Action

namespace Grammar

theorem ExitFree.cons {closed : Bool} {token : Token} {rest : List Token}
    (start : closed = true → token ≠ exitWord.token)
    (exitFree : ExitFree (endsStatement token) rest) : ExitFree closed (token :: rest) := by
  rintro (_ | ⟨first, before⟩) after same
  · cases same
    cases closed with
    | true => exact absurd rfl (start rfl)
    | false => rfl
  · obtain ⟨rfl, later⟩ := List.cons.inj same
    rw [← List.singleton_append, leavesClosed_append]
    exact exitFree before after later

theorem ExitFree.item {closed : Bool} {item : Item} {rest : List Token}
    (start : closed = true → item ≠ .argument exitWord) (exitFree : ExitFree false rest) :
    ExitFree closed (item.tokens ++ rest) := by
  rcases item with (text | ⟨mark, body⟩) | ⟨direction, target⟩
  · refine .cons (fun h => ?_) exitFree
    rintro same
    cases same
    exact start h rfl
  · exact .cons (by simp [Operand.token, exitWord]) exitFree
  · have target_eq : endsStatement target.token = false := by cases target <;> rfl
    have operator_eq : endsStatement (.operator direction.operator) = false := by
      cases direction <;> rfl
    refine .cons (by simp [Operand.token, exitWord]) (.cons ?_ (by rwa [target_eq]))
    simp [operator_eq]

theorem Site.exitFree (site : Site) (tokens : List Token)
    (reads : (site.read tokens).error? = none)
    (stays : (site.read tokens).line.flags.exit = false) :
    ExitFree site.current.isNone tokens := by
  induction tokens using tokens_induction generalizing site with
  | nil => rintro (_ | _) _ ⟨⟩
  | item item rest ih =>
    have start : site.current = none → item ≠ .argument exitWord := by
      rintro closed rfl
      have leaves : site.read ((Item.argument exitWord).tokens ++ rest) = _ :=
        read_exit site rest closed
      rw [leaves] at stays
      cases stays
    rw [read_item site item rest start] at reads stays
    exact .item (fun closed => start (Option.isNone_iff_eq_none.1 closed)) (ih _ reads stays)
  | bar rest ih =>
    rw [read_bar] at reads stays
    cases full : site.lacks with
    | true => simp [full] at reads
    | false =>
      rw [full, if_neg Bool.false_ne_true] at reads stays
      have opened : site.extend.current.isNone = false := by
        cases current : site.current with
        | none => simp [lacks, current] at full
        | some statement => simp [extend, current]
      have exitFree := ih _ reads stays
      rw [opened] at exitFree
      exact .cons (by simp [Operand.token, exitWord]) exitFree
  | terminator terminator rest ih =>
    rw [read_terminator] at reads stays
    cases full : site.lacks with
    | true => simp [full] at reads
    | false =>
      rw [full, if_neg Bool.false_ne_true] at reads stays
      have exitFree := ih _ reads stays
      have closed : (site.close terminator).current.isNone =
          endsStatement (.operator terminator.operator) := by
        cases terminator <;> rfl
      rw [closed] at exitFree
      exact .cons (by simp [Operand.token, exitWord]) exitFree
  | dangling direction rest noTarget =>
    rw [read_dangling _ _ _ noTarget] at reads
    cases reads

theorem Site.error_read (site : Site) (tokens : List Token) :
    (site.read tokens).line.flags.error = site.flags.error := by
  induction tokens using tokens_induction generalizing site with
  | nil => rw [read_nil]; rfl
  | item item rest ih =>
    by_cases exits : site.current = none ∧ item = .argument exitWord
    · obtain ⟨closed, rfl⟩ := exits
      have leaves : site.read ((Item.argument exitWord).tokens ++ rest) = _ :=
        read_exit site rest closed
      rw [leaves]
      rfl
    · rw [read_item site item rest fun closed same => exits ⟨closed, same⟩]
      exact ih (site.add item)
  | bar rest ih =>
    rw [read_bar]
    split
    · rfl
    · exact ih site.extend
  | terminator terminator rest ih =>
    rw [read_terminator]
    split
    · rfl
    · rw [ih]
      cases terminator <;> rfl
  | dangling direction rest noTarget =>
    rw [read_dangling _ _ _ noTarget]
    rfl

theorem error_parse (text : Word) : (Line.parse {} text).line.flags.error = false := by
  cases scanned : Token.scan text with
  | none => simp [Line.parse, scanned]
  | some tokens =>
    rw [parse_of_scan _ scanned]
    exact Site.error_read ..

end Grammar

namespace Pipeline

/-- Whatever ignores the flags that a pipeline hands back cannot tell whether the line asks to
leave. -/
theorem startEarlier_bind_eq {β : Type} {input : Descriptor} {flags flags' : Flags}
    {scheduling : Scheduling} {carried : Option Descriptor} {stages : List Stage}
    {f f' : Except (PipelineFailure × Flags) (Option Descriptor) → Action β}
    (same : flags.error = flags'.error) (ok : ∀ carried, f (.ok carried) = f' (.ok carried))
    (error : ∀ failure left left', f (.error (failure, left)) = f' (.error (failure, left'))) :
    startEarlier input flags scheduling carried stages >>= f =
      startEarlier input flags' scheduling carried stages >>= f' := by
  induction stages generalizing carried with
  | nil => exact ok carried
  | cons stage rest ih =>
    simp only [startEarlier, same]
    cases flags'.error with
    | true => simp [Action.bind_assoc, error _ flags flags']
    | false =>
      simp only [Bool.false_eq_true, if_false, Action.bind_assoc]
      congr 1
      funext started
      cases started with
      | ok readEnd => simp only [Action.bind_assoc, ih]
      | error reason =>
        simp only [Action.bind_assoc, pure_eq, done_bind]
        rw [error (.earlier reason) { flags with error := true } { flags' with error := true }]

theorem supervise_eq {α : Type} {pipeline : Pipeline} {flags flags' : Flags}
    (same : flags.error = flags'.error) (input output : Descriptor) (scheduling : Scheduling)
    (reporter : Option Descriptor) :
    (pipeline.supervise input output flags scheduling reporter : Action α) =
      pipeline.supervise input output flags' scheduling reporter := by
  simp only [supervise, run, Action.bind_assoc]
  apply startEarlier_bind_eq same
  · intro carried
    simp [Action.bind_assoc]
  · intro failure left left'
    rfl

theorem runAsJob_eq {pipeline : Pipeline} {flags flags' : Flags}
    (same : flags.error = flags'.error) (input output : Descriptor) (background : Bool)
    (scheduling : Scheduling) :
    pipeline.runAsJob input output background flags scheduling =
      pipeline.runAsJob input output background flags' scheduling := by
  simp only [runAsJob, runInBackground, runInForeground, supervise_eq same]

end Pipeline

theorem Statement.run_eq (statement : Statement) {flags flags' : Flags}
    (same : flags.error = flags'.error) (settings : Settings) :
    statement.run flags settings = statement.run flags' settings := by
  simp only [Statement.run, Pipeline.runAsJob_eq same]

namespace Line

variable {settings : Settings} {flags flags' : Flags}

end Line

end PipelineShell
