import PipelineShell.Line.Parse

/-!
# The grammar of command lines

A command line as it is derived, apart from how it is read: phrases with the tokens they are
written with and the statements they stand for. `LinePhrase.tokens` gives the two forms of a line,
statements with an open one at most at the end, or statements and an exit with anything after it.
A text that is no line is judged by its first token that no line has there (`FirstOffense`).
-/

namespace PipelineShell

def Pipeline.ofStages (first : Stage) : List Stage → Pipeline
  | [] => ⟨[], first⟩
  | next :: rest => ⟨first :: (ofStages next rest).earlier, (ofStages next rest).last⟩

@[simp] theorem Pipeline.stages_ofStages (first : Stage) (rest : List Stage) :
    (ofStages first rest).stages = first :: rest := by
  induction rest generalizing first with
  | nil => rfl
  | cons next rest ih => simpa [ofStages, stages] using ih next

theorem Pipeline.eq_of_stages {p q : Pipeline} (h : p.stages = q.stages) : p = q := by
  obtain ⟨earlier, last⟩ := p
  obtain ⟨earlier', last'⟩ := q
  obtain ⟨rfl, h⟩ := List.append_inj' h rfl
  cases h
  rfl

namespace Grammar

/-- An argument or a path as it is written. -/
inductive Operand
  | word (text : Word)
  | quoted (mark : QuoteMark) (body : Word)
deriving DecidableEq

namespace Operand

def token : Operand → Token
  | word text => .word text
  | quoted mark body => .quoted mark body

def value : Operand → Word
  | word text => text
  | quoted _ body => body

end Operand

def exitWord : Operand := .word "exit".toList

inductive Direction
  | input
  | output
deriving DecidableEq

def Direction.operator : Direction → Operator
  | input => .less
  | output => .greater

inductive Item
  | argument (operand : Operand)
  | redirection (direction : Direction) (target : Operand)
deriving DecidableEq

namespace Item

def tokens : Item → List Token
  | argument operand => [operand.token]
  | redirection direction target => [.operator direction.operator, target.token]

def argument? : Item → Option Word
  | argument operand => some operand.value
  | redirection .. => none

def target? (wanted : Direction) : Item → Option Word
  | argument _ => none
  | redirection direction target => if direction = wanted then some target.value else none

def isArgument (item : Item) : Bool := item.argument?.isSome

end Item

def itemTokens (items : List Item) : List Token := items.flatMap Item.tokens

def lastTarget (direction : Direction) (items : List Item) : Option Word :=
  (items.filterMap (Item.target? direction)).getLast?

structure StagePhrase where
  items : List Item
  hasArgument : items.any Item.isArgument = true

namespace StagePhrase

def tokens (phrase : StagePhrase) : List Token := itemTokens phrase.items

def stage (phrase : StagePhrase) : Stage := ⟨phrase.items.filterMap Item.argument?⟩

end StagePhrase

def barredTokens (stages : List StagePhrase) : List Token :=
  stages.flatMap fun phrase => .operator .pipe :: phrase.tokens

structure StatementPhrase where
  first : StagePhrase
  rest : List StagePhrase
  notExit : first.items.head? ≠ some (.argument exitWord)

namespace StatementPhrase

def stages (phrase : StatementPhrase) : List StagePhrase := phrase.first :: phrase.rest

def tokens (phrase : StatementPhrase) : List Token :=
  phrase.first.tokens ++ barredTokens phrase.rest

def items (phrase : StatementPhrase) : List Item := phrase.stages.flatMap StagePhrase.items

/-- The statement: every stage with its arguments, and the last redirection of each direction
wherever in the statement it is. -/
def statement (phrase : StatementPhrase) (background : Bool) : Statement where
  pipeline := .ofStages phrase.first.stage (phrase.rest.map StagePhrase.stage)
  input := lastTarget .input phrase.items
  output := lastTarget .output phrase.items
  background := background

end StatementPhrase

inductive Terminator
  | semicolon
  | ampersand

namespace Terminator

def operator : Terminator → Operator
  | semicolon => .semicolon
  | ampersand => .ampersand

def background : Terminator → Bool
  | semicolon => false
  | ampersand => true

end Terminator

inductive Ending
  | nothing
  | statement (phrase : StatementPhrase)
  | exit (ignored : List Token)

namespace Ending

def tokens : Ending → List Token
  | nothing => []
  | statement phrase => phrase.tokens
  | exit ignored => exitWord.token :: ignored

def statements : Ending → List Statement
  | statement phrase => [phrase.statement false]
  | nothing | exit _ => []

def isExit : Ending → Bool
  | exit _ => true
  | nothing | statement _ => false

end Ending

structure LinePhrase where
  terminated : List (StatementPhrase × Terminator)
  ending : Ending

namespace LinePhrase

def tokens (phrase : LinePhrase) : List Token :=
  phrase.terminated.flatMap (fun (statement, terminator) =>
    statement.tokens ++ [.operator terminator.operator]) ++ phrase.ending.tokens

def statements (phrase : LinePhrase) : List Statement :=
  phrase.terminated.map (fun (statement, terminator) =>
    statement.statement terminator.background) ++ phrase.ending.statements

end LinePhrase

def IsLine (tokens : List Token) : Prop := ∃ phrase : LinePhrase, phrase.tokens = tokens

/-- Tokens with which something that is accepted can begin. -/
def Viable (accepted : List Token → Prop) (start : List Token) : Prop :=
  ∃ rest, accepted (start ++ rest)

/-- Tokens that are not accepted, cut before the first one that makes them hopeless, if any does. -/
structure FirstOffense (accepted : List Token → Prop) (start rest : List Token) : Prop where
  rejected : ¬ accepted (start ++ rest)
  viable : Viable accepted start
  hopeless : ∀ next ∈ rest.head?, ¬ Viable accepted (start ++ [next])

def offense (start rest : List Token) : ParseError :=
  match start.getLast? with
  | some (.operator .less) => .missingTarget .less
  | some (.operator .greater) => .missingTarget .greater
  | _ =>
    match rest.head? with
    | some (.operator op) => .emptyCommand (some op)
    | _ => .emptyCommand none

def Offends (accepted : List Token → Prop) (tokens : List Token) (error : ParseError) : Prop :=
  ∃ start rest, start ++ rest = tokens ∧ FirstOffense accepted start rest ∧
    error = offense start rest

end Grammar

end PipelineShell
