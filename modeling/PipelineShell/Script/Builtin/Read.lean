import PipelineShell.Script.Builtin.Variables

namespace PipelineShell.Script.Builtin

open PipelineShell.Action Eval

/-- Reads a line byte by byte. A backslash joins it with the next one, unless `raw`. The result is
the line, with each character's claim to be a separator, and whether a newline ended it. -/
def readLine (raw : Bool) : Action (List UInt8 × List Bool × Bool) :=
  loop (fun (bytes, marks, escaped) => do
    match ← perform (.read standardInput 1) with
    | .error errno =>
      return if errno = .interrupted then .again (bytes, marks, escaped)
        else .leave (bytes.reverse, marks.reverse, false)
    | .ok data =>
      match data.toList with
      | [] => return .leave (bytes.reverse, marks.reverse, false)
      | byte :: _ =>
        if escaped then
          if byte == 0x0a then return .again (bytes, marks, false)
          else return .again (byte :: bytes, false :: marks, false)
        else if byte == 0x5c && !raw then return .again (bytes, marks, true)
        else if byte == 0x0a then return .leave (bytes.reverse, marks.reverse, true)
        else if byte == 0 then return .again (bytes, marks, false)
        else return .again (byte :: bytes, true :: marks, false))
    patience ([], [], false)

abbrev Mark := Char × Bool

def marked : List UInt8 → List Bool → List Mark
  | [], _ => []
  | byte :: bytes, marks =>
    let length := if byte < 0xc0 then 1 else if byte < 0xe0 then 2 else if byte < 0xf0 then 3 else 4
    let piece := (byte :: bytes).take length
    let text := (String.fromUTF8? ⟨piece.toArray⟩).getD "\ufffd"
    text.toList.map (fun c => (c, marks.headD true)) ++
      marked (bytes.drop (length - 1)) (marks.drop length)
termination_by bytes => bytes.length

def isSeparator (separators : List Char) (mark : Mark) : Bool :=
  mark.2 && separators.contains mark.1

def isBlankSeparator (separators : List Char) (mark : Mark) : Bool :=
  isSeparator separators mark && (mark.1 = ' ' || mark.1 = '\t' || mark.1 = '\n')

def textOf (marks : List Mark) : String := String.ofList (marks.map (·.1))

def distribute (separators : List Char) : List String → List Mark → List (String × String)
  | [], _ => []
  | [name], line =>
    let line := line.dropWhile (isBlankSeparator separators)
    let line := (line.reverse.dropWhile (isBlankSeparator separators)).reverse
    [(name, textOf line)]
  | name :: rest, line =>
    let line := line.dropWhile (isBlankSeparator separators)
    let field := line.takeWhile fun mark => !isSeparator separators mark
    let after := (line.drop field.length).dropWhile (isBlankSeparator separators)
    let after := match after with
      | mark :: more =>
        if (line.drop field.length).isEmpty then after
        else if isSeparator separators mark then more else after
      | [] => []
    (name, textOf field) :: distribute separators rest after

def read : Builtin := fun arguments => do
  let (found, names) ← options ['r'] arguments ['p']
  if names.isEmpty then Eval.fail "arg count"
  let raw := found.any (·.1 = 'r')
  let (bytes, marks, ended) ← act (readLine raw)
  for (name, value) in distribute (← get).separators names (marked bytes marks) do
    checkName name
    assign name value
  return if ended then 0 else 1

end PipelineShell.Script.Builtin
