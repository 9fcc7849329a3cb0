import PipelineShell.Line

/-!
# Reading a line

`Line.parse` reads a text and appends its statements to a line. It is total: on an error the line
is returned as far as it was built. A redirection may stand anywhere in its statement, the last
one of each direction counts, and the unquoted word `exit` at the start of a statement ends the
reading.
-/

namespace PipelineShell

inductive ParseError
  | unterminatedQuote
  | missingTarget (op : Operator)
  | emptyCommand (before : Option Operator)
deriving Repr, DecidableEq

namespace ParseError

def message : ParseError → String
  | unterminatedQuote => "unterminated quote"
  | missingTarget op => "expected a path after '" ++ op.char.toString ++ "'"
  | emptyCommand (some op) => "empty command near '" ++ op.char.toString ++ "'"
  | emptyCommand none => "empty command near 'newline'"

end ParseError

structure Reading where
  line : Line
  error? : Option ParseError := none
deriving Repr, DecidableEq

namespace Line

def opened (line : Line) (isOpen : Bool) : Line :=
  if isOpen then line else line.appendStatement false

def lacksCommand (line : Line) (isOpen : Bool) : Bool :=
  !isOpen || (line.current?.all (·.pipeline.last.isEmpty))

def redirect (line : Line) (op : Operator) (path : Word) : Line :=
  if op = .less then line.setInput path else line.setOutput path

/-- Reads tokens into a line whose last statement is being built if `isOpen`. -/
def parseTokens (line : Line) (isOpen : Bool) : List Token → Reading
  | [] =>
    if isOpen && line.lacksCommand isOpen then ⟨line, some (.emptyCommand none)⟩ else ⟨line, none⟩
  | .word text :: rest =>
    if !isOpen && text == "exit".toList then ⟨line.requestExit, none⟩
    else parseTokens ((line.opened isOpen).appendArgument text false) true rest
  | .quoted mark body :: rest =>
    parseTokens ((line.opened isOpen).appendArgument (Token.quoted mark body).text true) true rest
  | .operator op :: rest =>
    match op with
    | .pipe =>
      if line.lacksCommand isOpen then ⟨line, some (.emptyCommand (some op))⟩
      else parseTokens line.appendStage isOpen rest
    | .semicolon =>
      if line.lacksCommand isOpen then ⟨line, some (.emptyCommand (some op))⟩
      else parseTokens line false rest
    | .ampersand =>
      if line.lacksCommand isOpen then ⟨line, some (.emptyCommand (some op))⟩
      else parseTokens (line.setBackground true) false rest
    | .less | .greater =>
      match rest with
      | .word path :: rest => parseTokens ((line.opened isOpen).redirect op path) true rest
      | .quoted _ path :: rest => parseTokens ((line.opened isOpen).redirect op path) true rest
      | _ => ⟨line, some (.missingTarget op)⟩

def parse (line : Line) (text : Word) : Reading :=
  match Token.scan text with
  | some tokens => line.parseTokens false tokens
  | none => ⟨line, some .unterminatedQuote⟩

end Line

end PipelineShell
