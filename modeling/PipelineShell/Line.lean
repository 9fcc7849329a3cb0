import PipelineShell.Statement

/-!
# Lines

What one line of input asks for: its statements in order and two flags. A line is built at its
end; arguments and stages go to the last statement, which is created where there is none.
-/

namespace PipelineShell

structure Flags where
  error : Bool := false
  exit : Bool := false
deriving Repr, DecidableEq

structure Line where
  statements : List Statement := []
  flags : Flags := {}
deriving Repr, DecidableEq

def onLast {α : Type} (f : α → α) : List α → List α
  | [] => []
  | [a] => [f a]
  | a :: b :: rest => a :: onLast f (b :: rest)

@[simp] theorem onLast_nil {α : Type} (f : α → α) : onLast f [] = [] := rfl

@[simp] theorem onLast_concat {α : Type} (f : α → α) (xs : List α) (x : α) :
    onLast f (xs ++ [x]) = xs ++ [f x] := by
  induction xs with
  | nil => rfl
  | cons a xs ih =>
    cases xs with
    | nil => rfl
    | cons b xs => simpa [onLast] using ih

def stripDelimiters (text : Word) : Word := text.tail.dropLast

theorem stripDelimiters_text_quoted (mark : QuoteMark) (body : Word) :
    stripDelimiters (Token.quoted mark body).text = body := by
  simp [stripDelimiters, Token.text]

namespace Line

def startNew (line : Line) : Line :=
  { line with statements := [], flags := {} }

@[simp] theorem startNew_eq (line : Line) : line.startNew = {} := rfl

def current? (line : Line) : Option Statement := line.statements.getLast?

def appendStatement (line : Line) (background : Bool) : Line :=
  { line with statements := line.statements ++ [{ background }] }

def modifyCurrent (line : Line) (f : Statement → Statement) : Line :=
  { line with statements := onLast f line.statements }

def orNew (line : Line) : Line :=
  if line.statements.isEmpty then line.appendStatement false else line

def modifyPipeline (line : Line) (f : Pipeline → Pipeline) : Line :=
  line.orNew.modifyCurrent fun statement => { statement with pipeline := f statement.pipeline }

/-- Adds an argument to the last stage. A quoted text loses its delimiters. -/
def appendArgument (line : Line) (text : Word) (isQuoted : Bool) : Line :=
  line.modifyPipeline (·.push (if isQuoted then stripDelimiters text else text))

def appendStage (line : Line) : Line :=
  line.modifyPipeline Pipeline.extend

def setInput (line : Line) (path : Word) : Line :=
  line.modifyCurrent fun statement => { statement with input := some path }

def setOutput (line : Line) (path : Word) : Line :=
  line.modifyCurrent fun statement => { statement with output := some path }

def setBackground (line : Line) (background : Bool) : Line :=
  line.modifyCurrent fun statement => { statement with background }

def requestExit (line : Line) : Line :=
  { line with flags := { line.flags with exit := true } }

def markError (line : Line) : Line :=
  { line with flags := { line.flags with error := true } }

end Line

end PipelineShell
