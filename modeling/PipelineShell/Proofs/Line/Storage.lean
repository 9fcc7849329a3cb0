import PipelineShell.Proofs.Line.Builder
import PipelineShell.Proofs.Line.Offsets

/-!
# How a line is stored

A stored pipeline is a list of stages that may be empty as far as its type goes. The last stage and
the last statement are accessed by their index, and the parts of a text by their offsets; each
access may fail. The operations on a stored line fail as a whole if an access does.

* `Line.after?_stored`: no sequence of operations fails.
* `Line.operations_only_grow`: what any sequence of operations on a new line keeps.
-/

namespace PipelineShell

/-! ## The last element -/

section Last

variable {α : Type}

def last? (xs : List α) : Option α :=
  (indexBefore? xs.length).bind (xs[·]?)

def updateLast? (f : α → Option α) (xs : List α) : Option (List α) := do
  let index ← indexBefore? xs.length
  let element ← xs[index]?
  return xs.set index (← f element)

@[simp] theorem last?_concat (xs : List α) (x : α) : last? (xs ++ [x]) = some x := by
  simp [last?, indexBefore?]

@[simp] theorem updateLast?_concat (f : α → Option α) (xs : List α) (x : α) :
    updateLast? f (xs ++ [x]) = (f x).map (xs ++ [·]) := by
  cases result : f x <;> simp [updateLast?, indexBefore?, result]

end Last

namespace Stored

structure Statement where
  stages : List Stage
  input : Option Word := none
  output : Option Word := none
  background : Bool := false
deriving DecidableEq

structure Line where
  statements : List Statement := []
  flags : Flags := {}
deriving DecidableEq

namespace Statement

def fresh (background : Bool) : Statement := { stages := [{}], background }

def push? (statement : Statement) (arg : Word) : Option Statement := do
  let stages ← updateLast? (fun stage => some (stage.push arg)) statement.stages
  return { statement with stages }

def extend (statement : Statement) : Statement :=
  { statement with stages := statement.stages ++ [{}] }

end Statement

namespace Line

def appendStatement? (line : Line) (background : Bool) : Option Line := do
  let statements := line.statements ++ [.fresh background]
  let _ ← last? statements
  return { line with statements }

def orNew? (line : Line) : Option Line :=
  if line.statements.isEmpty then line.appendStatement? false else some line

def modifyCurrentOrNew? (line : Line) (f : Statement → Option Statement) : Option Line := do
  let line ← line.orNew?
  return { line with statements := ← updateLast? f line.statements }

def appendArgument? (line : Line) (text : Word) (isQuoted : Bool) : Option Line :=
  line.modifyCurrentOrNew? (·.push? (if isQuoted then stripDelimiters text else text))

def appendStage? (line : Line) : Option Line :=
  line.modifyCurrentOrNew? fun statement => some statement.extend

def modifyCurrent (line : Line) (f : Statement → Statement) : Line :=
  { line with statements := onLast f line.statements }

def setInput (line : Line) (path : Word) : Line :=
  line.modifyCurrent fun statement => { statement with input := some path }

def setOutput (line : Line) (path : Word) : Line :=
  line.modifyCurrent fun statement => { statement with output := some path }

def setBackground (line : Line) (background : Bool) : Line :=
  line.modifyCurrent fun statement => { statement with background }

def requestExit (line : Line) : Line :=
  { line with flags := { line.flags with exit := true } }

def markError (line : Line) : Line :=
  { line with flags := { line.flags with error := true } }

/-! ## Reading -/

def opened? (line : Line) (isOpen : Bool) : Option Line :=
  if isOpen then some line else line.appendStatement? false

def lacksCommand? (line : Line) (isOpen : Bool) : Option Bool :=
  if isOpen then
    match line.statements.getLast? with
    | some statement => (last? statement.stages).map (·.isEmpty)
    | none => some true
  else some true

def redirect (line : Line) (op : Operator) (path : Word) : Line :=
  if op = .less then line.setInput path else line.setOutput path

def readPieces? (line : Line) (isOpen : Bool) :
    List Piece → Option (Line × Option ParseError)
  | [] => do
    if isOpen && (← line.lacksCommand? isOpen) then return (line, some (.emptyCommand none))
    return (line, none)
  | .word text :: rest =>
    if !isOpen && text == "exit".toList then some (line.requestExit, none)
    else do readPieces? (← (← line.opened? isOpen).appendArgument? text false) true rest
  | .quoted text :: rest => do
    readPieces? (← (← line.opened? isOpen).appendArgument? text true) true rest
  | .operator op :: rest =>
    match op with
    | .pipe => do
      if ← line.lacksCommand? isOpen then return (line, some (.emptyCommand (some op)))
      readPieces? (← line.appendStage?) isOpen rest
    | .semicolon => do
      if ← line.lacksCommand? isOpen then return (line, some (.emptyCommand (some op)))
      readPieces? line false rest
    | .ampersand => do
      if ← line.lacksCommand? isOpen then return (line, some (.emptyCommand (some op)))
      readPieces? (line.setBackground true) false rest
    | .less | .greater =>
      match rest with
      | .word path :: rest => do
        readPieces? ((← line.opened? isOpen).redirect op path) true rest
      | .quoted text :: rest => do
        let path ← Piece.unquote? text
        readPieces? ((← line.opened? isOpen).redirect op path) true rest
      | _ => some (line, some (.missingTarget op))

def parse? (line : Line) (text : Word) : Option (Line × Option ParseError) := do
  match ← Piece.cut? text (Cursor.startAt 0 text) with
  | .ok pieces => line.readPieces? false pieces
  | .error error => return (line, some error)

def carryOut? : Operation → Line → Option Line
  | .startNew, line => some { line with statements := [], flags := {} }
  | .appendStatement background, line => line.appendStatement? background
  | .appendArgument text isQuoted, line => line.appendArgument? text isQuoted
  | .appendStage, line => line.appendStage?
  | .setInput path, line => some (line.setInput path)
  | .setOutput path, line => some (line.setOutput path)
  | .setBackground background, line => some (line.setBackground background)
  | .requestExit, line => some line.requestExit
  | .markError, line => some line.markError
  | .parse text, line => (line.parse? text).map Prod.fst

def after? (line : Line) (operations : List Operation) : Option Line :=
  operations.foldlM (fun line operation => line.carryOut? operation) line

end Line

end Stored

/-! ## A stored line stands for a line -/

def Statement.stored (statement : Statement) : Stored.Statement :=
  ⟨statement.pipeline.stages, statement.input, statement.output, statement.background⟩

def Line.stored (line : Line) : Stored.Line := ⟨line.statements.map Statement.stored, line.flags⟩

namespace Statement

@[simp] theorem stored_new (background : Bool) :
    stored { background } = Stored.Statement.fresh background := rfl

theorem push?_stored (statement : Statement) (arg : Word) :
    statement.stored.push? arg =
      some { statement with pipeline := statement.pipeline.push arg }.stored := by
  simp [Stored.Statement.push?, stored, Pipeline.stages, Pipeline.push]

theorem extend_stored (statement : Statement) :
    statement.stored.extend = { statement with pipeline := statement.pipeline.extend }.stored := rfl

theorem last?_stored (statement : Statement) :
    last? statement.stored.stages = some statement.pipeline.last :=
  last?_concat ..

theorem stages_stored_ne_nil (statement : Statement) : statement.stored.stages ≠ [] := by
  simp [stored, Pipeline.stages]

end Statement

namespace Line

variable (line : Line)

theorem appendStatement?_stored (background : Bool) :
    line.stored.appendStatement? background = some (line.appendStatement background).stored := by
  simp [Stored.Line.appendStatement?, stored, appendStatement]

theorem orNew?_stored : line.stored.orNew? = some line.orNew.stored := by
  have same : line.stored.statements.isEmpty = line.statements.isEmpty := List.isEmpty_map
  rw [Stored.Line.orNew?, orNew, same]
  split
  · exact line.appendStatement?_stored false
  · rfl

theorem exists_last_orNew : ∃ front last, line.orNew.statements = front ++ [last] := by
  obtain ⟨statements, flags⟩ := line
  rcases statements.eq_nil_or_concat with rfl | ⟨front, last, rfl⟩
  · exact ⟨[], _, rfl⟩
  · exact ⟨front, last, by simp [orNew]⟩

theorem modifyCurrentOrNew?_stored {f : Stored.Statement → Option Stored.Statement}
    {g : Pipeline → Pipeline}
    (same : ∀ statement : Statement,
      f statement.stored = some { statement with pipeline := g statement.pipeline }.stored) :
    line.stored.modifyCurrentOrNew? f = some (line.modifyPipeline g).stored := by
  obtain ⟨front, last, built⟩ := line.exists_last_orNew
  rw [Stored.Line.modifyCurrentOrNew?, orNew?_stored]
  simp [modifyPipeline, modifyCurrent, stored, built, same]

theorem appendArgument?_stored (text : Word) (isQuoted : Bool) :
    line.stored.appendArgument? text isQuoted = some (line.appendArgument text isQuoted).stored :=
  line.modifyCurrentOrNew?_stored fun statement => statement.push?_stored _

theorem appendStage?_stored : line.stored.appendStage? = some line.appendStage.stored :=
  line.modifyCurrentOrNew?_stored fun statement => congrArg some statement.extend_stored

theorem modifyCurrent_stored {f : Stored.Statement → Stored.Statement} {g : Statement → Statement}
    (same : ∀ statement : Statement, f statement.stored = (g statement).stored) :
    line.stored.modifyCurrent f = (line.modifyCurrent g).stored := by
  obtain ⟨statements, flags⟩ := line
  rcases statements.eq_nil_or_concat with rfl | ⟨front, last, rfl⟩
  · rfl
  · simp [Stored.Line.modifyCurrent, modifyCurrent, stored, same]

theorem setInput_stored (path : Word) : line.stored.setInput path = (line.setInput path).stored :=
  line.modifyCurrent_stored fun _ => rfl

theorem setOutput_stored (path : Word) : line.stored.setOutput path = (line.setOutput path).stored :=
  line.modifyCurrent_stored fun _ => rfl

theorem setBackground_stored (background : Bool) :
    line.stored.setBackground background = (line.setBackground background).stored :=
  line.modifyCurrent_stored fun _ => rfl

/-! ## Reading a stored line -/

theorem opened?_stored (isOpen : Bool) :
    line.stored.opened? isOpen = some (line.opened isOpen).stored := by
  cases isOpen with
  | true => rfl
  | false => exact line.appendStatement?_stored false

theorem lacksCommand?_stored (isOpen : Bool) :
    line.stored.lacksCommand? isOpen = some (line.lacksCommand isOpen) := by
  cases isOpen with
  | false => rfl
  | true =>
    obtain ⟨statements, flags⟩ := line
    rcases statements.eq_nil_or_concat with rfl | ⟨front, last, rfl⟩
    · rfl
    · simp [Stored.Line.lacksCommand?, lacksCommand, current?, stored, Statement.last?_stored]

theorem redirect_stored (op : Operator) (path : Word) :
    line.stored.redirect op path = (line.redirect op path).stored := by
  unfold Stored.Line.redirect redirect
  split
  · exact line.setInput_stored path
  · exact line.setOutput_stored path

end Line

def Reading.stored (reading : Reading) : Stored.Line × Option ParseError :=
  (reading.line.stored, reading.error?)

namespace Line

theorem readPieces?_stored (line : Line) (isOpen : Bool) (tokens : List Token) :
    line.stored.readPieces? isOpen (tokens.map Piece.ofToken) =
      some (line.parseTokens isOpen tokens).stored := by
  fun_induction parseTokens line isOpen tokens with
  | case1 line isOpen lacking =>
    rw [Bool.and_eq_true] at lacking
    simp only [List.map_nil, Stored.Line.readPieces?, lacksCommand?_stored, Option.bind_eq_bind,
      Option.bind_some, Bool.and_eq_true, if_pos lacking]
    rfl
  | case2 line isOpen complete =>
    rw [Bool.and_eq_true] at complete
    simp only [List.map_nil, Stored.Line.readPieces?, lacksCommand?_stored, Option.bind_eq_bind,
      Option.bind_some, Bool.and_eq_true, if_neg complete]
    rfl
  | case3 line isOpen text rest exits =>
    rw [List.map_cons, Piece.ofToken, Stored.Line.readPieces?, if_pos exits]
    rfl
  | case4 line isOpen text rest stays ih =>
    rw [List.map_cons, Piece.ofToken, Stored.Line.readPieces?, if_neg stays, opened?_stored]
    simp only [Option.bind_eq_bind, Option.bind_some, appendArgument?_stored]
    exact ih
  | case5 line isOpen mark body rest ih =>
    rw [List.map_cons, Piece.ofToken, Stored.Line.readPieces?, opened?_stored]
    simp only [Option.bind_eq_bind, Option.bind_some, appendArgument?_stored]
    exact ih
  | case6 line isOpen rest lacking | case8 line isOpen rest lacking
  | case10 line isOpen rest lacking =>
    rw [List.map_cons, Piece.ofToken, Stored.Line.readPieces?, lacksCommand?_stored, lacking]
    rfl
  | case7 line isOpen rest full ih =>
    rw [Bool.not_eq_true] at full
    rw [List.map_cons, Piece.ofToken, Stored.Line.readPieces?, lacksCommand?_stored, full,
      appendStage?_stored]
    exact ih
  | case9 line isOpen rest full ih =>
    rw [Bool.not_eq_true] at full
    rw [List.map_cons, Piece.ofToken, Stored.Line.readPieces?, lacksCommand?_stored, full]
    exact ih
  | case11 line isOpen rest full ih =>
    rw [Bool.not_eq_true] at full
    rw [List.map_cons, Piece.ofToken, Stored.Line.readPieces?, lacksCommand?_stored, full,
      setBackground_stored]
    exact ih
  | case12 line isOpen path rest ih | case15 line isOpen path rest ih =>
    simp only [List.map_cons, Piece.ofToken, Stored.Line.readPieces?, opened?_stored,
      Option.bind_eq_bind, Option.bind_some, redirect_stored]
    exact ih
  | case13 line isOpen mark path rest ih | case16 line isOpen mark path rest ih =>
    simp only [List.map_cons, Piece.ofToken, Stored.Line.readPieces?, Piece.unquote?_text,
      opened?_stored, Option.bind_eq_bind, Option.bind_some, redirect_stored]
    exact ih
  | case14 line isOpen rest noWord noQuoted | case17 line isOpen rest noWord noQuoted =>
    -- Of the texts behind a sign only those without a path are left.
    rcases rest with _ | ⟨_ | _ | _, rest⟩
    · rfl
    · exact absurd rfl (noWord _ _)
    · exact absurd rfl (noQuoted _ _ _)
    · rfl

theorem parse?_stored (line : Line) (text : Word) :
    line.stored.parse? text = some (line.parse text).stored := by
  rw [Stored.Line.parse?, Piece.cut?_eq, parse]
  cases Token.scan text with
  | none => rfl
  | some tokens => exact line.readPieces?_stored false tokens

theorem carryOut?_stored (line : Line) (operation : Operation) :
    line.stored.carryOut? operation = some (operation.apply line).stored := by
  cases operation with
  | startNew => rfl
  | appendStatement background => exact line.appendStatement?_stored background
  | appendArgument text isQuoted => exact line.appendArgument?_stored text isQuoted
  | appendStage => exact line.appendStage?_stored
  | setInput path => exact congrArg some (line.setInput_stored path)
  | setOutput path => exact congrArg some (line.setOutput_stored path)
  | setBackground background => exact congrArg some (line.setBackground_stored background)
  | requestExit | markError => rfl
  | parse text =>
    rw [Stored.Line.carryOut?, parse?_stored]
    rfl

/-- No operation fails on a stored line, in whatever order they come. -/
theorem after?_stored (line : Line) (operations : List Operation) :
    line.stored.after? operations = some (line.after operations).stored := by
  induction operations generalizing line with
  | nil => rfl
  | cons operation operations ih =>
    rw [Stored.Line.after?, List.foldlM_cons, carryOut?_stored]
    exact ih (operation.apply line)

/-! ## What operations keep -/

/-- Every pipeline has a stage, operations only add to what there is, and the flags say what has
been asked for since the line was new. -/
structure OnlyGrows (line : Line) : Prop where
  staged : ∀ statement ∈ line.stored.statements, statement.stages ≠ []
  grows : ∀ operation : Operation, operation ≠ .startNew → line.Grows (operation.apply line)
  reads : ∀ text, line.Reaches (line.parse text).line
  first_argument : line.statements = [] → ∀ text isQuoted,
    line.appendArgument text isQuoted =
      (line.appendStatement false).appendArgument text isQuoted
  first_stage : line.statements = [] → line.appendStage = (line.appendStatement false).appendStage
  first_statement : line.statements = [] →
    (line.appendStatement false).stored = ⟨[⟨[⟨[]⟩], none, none, false⟩], line.flags⟩
  error : ∀ operation : Operation, (operation.apply line).flags.error = true ↔
    operation = .markError ∨ operation ≠ .startNew ∧ line.flags.error = true
  exit : ∀ operation : Operation, (operation.apply line).flags.exit = true ↔
    operation.AsksExit ∨ operation ≠ .startNew ∧ line.flags.exit = true
  renewed : Operation.startNew.apply line = {}

theorem staged_stored (line : Line) :
    ∀ statement ∈ line.stored.statements, statement.stages ≠ [] := by
  intro statement member
  obtain ⟨statement, -, rfl⟩ := List.mem_map.1 member
  exact statement.stages_stored_ne_nil

theorem modifyPipeline_of_empty {line : Line} (empty : line.statements = [])
    (f : Pipeline → Pipeline) :
    line.modifyPipeline f = (line.appendStatement false).modifyPipeline f := by
  have first : line.orNew = line.appendStatement false := if_pos (by simp [empty])
  have kept : (line.appendStatement false).orNew = line.appendStatement false :=
    if_neg (by simp [appendStatement])
  rw [modifyPipeline, modifyPipeline, first, kept]

/-- A new line may be put through any operations: they all succeed, and what they make of it only
grows until the next line is started. -/
theorem operations_only_grow (operations : List Operation) :
    Stored.Line.after? {} operations = some (after {} operations).stored ∧
      (after {} operations).OnlyGrows where
  left := after?_stored {} operations
  right := {
    staged := staged_stored _
    grows := fun _ keeps => Operation.grows keeps _
    reads := reaches_parse _
    first_argument := fun empty _ _ => modifyPipeline_of_empty empty _
    first_stage := fun empty => modifyPipeline_of_empty empty _
    first_statement := fun empty => by simp [appendStatement, stored, empty]; rfl
    error := fun operation => operation.error_apply_iff _
    exit := fun operation => operation.exit_apply_iff _
    renewed := rfl }

example : Stored.Line.after? {} [.setOutput ['f'], .appendStage, .appendArgument ['a'] true,
    .parse "exit;b".toList, .parse "é<'g|'|".toList] =
      some ⟨[⟨[{}, ⟨[[]]⟩], none, none, false⟩, ⟨[⟨[['é']]⟩, {}], some "g|".toList, none, false⟩],
        ⟨false, true⟩⟩ := by
  decide +kernel

end Line

end PipelineShell
