import PipelineShell.Token

/-!
# Statements

A statement is a pipeline of stages with the two files that its ends may be connected to. A
pipeline has at least one stage by construction: the earlier stages and the last one.
-/

namespace PipelineShell

structure Stage where
  args : List Word := []
deriving Repr, DecidableEq

namespace Stage

def program? (stage : Stage) : Option Word := stage.args.head?

def isEmpty (stage : Stage) : Bool := stage.args.isEmpty

def push (stage : Stage) (arg : Word) : Stage := ⟨stage.args ++ [arg]⟩

def text (stage : Stage) : Word := [' '].intercalate stage.args

end Stage

structure Pipeline where
  earlier : List Stage := []
  last : Stage := {}
deriving Repr, DecidableEq

namespace Pipeline

def stages (pipeline : Pipeline) : List Stage := pipeline.earlier ++ [pipeline.last]

def length (pipeline : Pipeline) : Nat := pipeline.earlier.length + 1

@[simp] theorem length_stages (pipeline : Pipeline) : pipeline.stages.length = pipeline.length := by
  simp [stages, length]

def extend (pipeline : Pipeline) : Pipeline := ⟨pipeline.stages, {}⟩

def push (pipeline : Pipeline) (arg : Word) : Pipeline :=
  { pipeline with last := pipeline.last.push arg }

def text (pipeline : Pipeline) : Word :=
  [' ', '|', ' '].intercalate (pipeline.stages.map Stage.text)

end Pipeline

structure Statement where
  pipeline : Pipeline := {}
  input : Option Word := none
  output : Option Word := none
  background : Bool := false
deriving Repr, DecidableEq

namespace Statement

def redirectionText (op : Operator) : Option Word → Word
  | some path => [' ', op.char, ' '] ++ path
  | none => []

/-- A statement as it is shown in job lists and messages, without its quotation marks. -/
def text (statement : Statement) : Word :=
  statement.pipeline.text ++ redirectionText .less statement.input ++
    redirectionText .greater statement.output ++ (if statement.background then [' ', '&'] else [])

end Statement

end PipelineShell
