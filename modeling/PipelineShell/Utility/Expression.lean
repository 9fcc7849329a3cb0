import PipelineShell.Utility.Output
import PipelineShell.Utility.Pattern

namespace PipelineShell.Utility

open PipelineShell.Action Host

namespace Expression

inductive Failure
  | syntaxError (message : String)
  | notInteger
  | divisionByZero
  | pattern (mistake : Pattern.Mistake)

def levels : List (List String) := [
  ["|"], ["&"], ["<", "<=", "=", "==", "!=", ">=", ">"], ["+", "-"], ["*", "/", "%"], [":"]]

def isNull (value : String) : Bool := value.isEmpty || integer? value = some 0

def truth (value : Bool) : String := if value then "1" else "0"

/-- The text of the first group where a pattern matches the beginning of a text, or the number of
bytes that match if it has no group. -/
def matched (text pattern : String) : Except Failure String := do
  let bytes := text.toUTF8.toList
  match Pattern.read { grammar := .basic, ignoreCase := false } pattern.toUTF8.toList with
  | .ok pattern =>
    let length? := pattern.longest? true 0 none bytes
    if pattern.groups.isEmpty then return toString (length?.getD 0)
    match length? with
    | some length =>
      let part := pattern.capture true (length = bytes.length) (bytes.take length) 1
      return (String.fromUTF8? ⟨part.toArray⟩).getD ""
    | none => return ""
  | .error mistake => throw (.pattern mistake)

def compareValues (operator left right : String) : Bool :=
  let order := match integer? left, integer? right with
    | some a, some b => compare a b
    | _, _ => compare left.toUTF8.toList right.toUTF8.toList
  match operator with
  | "<" => order = .lt
  | "<=" => order ≠ .gt
  | "=" | "==" => order = .eq
  | "!=" => order ≠ .eq
  | ">=" => order ≠ .lt
  | _ => order = .gt

def arithmetic (operator left right : String) : Except Failure String := do
  match integer? left, integer? right with
  | some a, some b =>
    match operator with
    | "+" => return toString (a + b)
    | "-" => return toString (a - b)
    | "*" => return toString (a * b)
    | "/" => if b = 0 then throw .divisionByZero else return toString (a.tdiv b)
    | _ => if b = 0 then throw .divisionByZero else return toString (a.tmod b)
  | _, _ => throw .notInteger

def apply (operator left right : String) : Except Failure String :=
  match operator with
  | "|" => .ok (if !isNull left then left else if isNull right then "0" else right)
  | "&" => .ok (if isNull left || isNull right then "0" else left)
  | ":" => matched left right
  | "+" | "-" | "*" | "/" | "%" => arithmetic operator left right
  | _ => .ok (truth (compareValues operator left right))

def indexOf (text characters : String) : Nat :=
  match text.toList.findIdx? fun c => characters.toList.contains c with
  | some i => i + 1
  | none => 0

def slice (text position length : String) : String :=
  match integer? position, integer? length with
  | some p, some n =>
    if p ≤ 0 || n ≤ 0 then ""
    else String.ofList ((text.toList.drop (p.toNat - 1)).take n.toNat)
  | _, _ => ""

mutual

/-- Reads an expression of the given levels and the words that follow it. One that is not `active`
has no influence on the result, and nothing is computed for it. -/
def readLevel (active : Bool) (bound : Nat) (operators : List (List String)) (words : List String) :
    Except Failure (String × List String) := do
  match bound with
  | 0 => throw (.syntaxError "syntax error")
  | bound + 1 =>
    match operators with
    | [] => readOperand active bound words
    | level :: tighter =>
      let (left, rest) ← readLevel active bound tighter words
      readMore active bound level tighter left rest

def readMore (active : Bool) (bound : Nat) (level : List String) (tighter : List (List String))
    (left : String) (words : List String) : Except Failure (String × List String) := do
  match bound with
  | 0 => throw (.syntaxError "syntax error")
  | bound + 1 =>
    match words with
    | operator :: rest =>
      if level.contains operator then
        if rest.isEmpty then
          throw (.syntaxError ("syntax error: missing argument after " ++ quoted operator))
        let matters := (operator ≠ "|" || isNull left) && (operator ≠ "&" || !isNull left)
        let (right, rest) ← readLevel (active && matters) bound tighter rest
        let value ← if active then apply operator left right else pure left
        readMore active bound level tighter value rest
      else return (left, words)
    | [] => return (left, [])

def readOperand (active : Bool) (bound : Nat) (words : List String) :
    Except Failure (String × List String) := do
  match bound with
  | 0 => throw (.syntaxError "syntax error")
  | bound + 1 =>
    match words with
    | [] => throw (.syntaxError "syntax error: missing argument")
    | "(" :: rest =>
      match ← readLevel active bound levels rest with
      | (value, ")" :: rest) => return (value, rest)
      | (_, next :: _) =>
        throw (.syntaxError ("syntax error: expecting ')' instead of " ++ quoted next))
      | (value, []) =>
        throw (.syntaxError ("syntax error: expecting ')' after " ++ quoted value))
    | ")" :: _ => throw (.syntaxError "syntax error: unexpected ')'")
    | "+" :: word :: rest => return (word, rest)
    | "length" :: rest =>
      let (text, rest) ← readOperand active bound rest
      return (toString text.length, rest)
    | "match" :: rest =>
      let (text, rest) ← readOperand active bound rest
      let (pattern, rest) ← readOperand active bound rest
      return (← if active then matched text pattern else pure "", rest)
    | "index" :: rest =>
      let (text, rest) ← readOperand active bound rest
      let (characters, rest) ← readOperand active bound rest
      return (toString (indexOf text characters), rest)
    | "substr" :: rest =>
      let (text, rest) ← readOperand active bound rest
      let (position, rest) ← readOperand active bound rest
      let (length, rest) ← readOperand active bound rest
      return (slice text position length, rest)
    | word :: rest => return (word, rest)

end

def evaluate (words : List String) : Except Failure String := do
  match ← readLevel true (20 * words.length + 20) levels words with
  | (value, []) => return value
  | (_, extra :: _) => throw (.syntaxError ("syntax error: unexpected argument " ++ quoted extra))

end Expression

def expr : Program := fun invocation => do
  let words := match invocation.arguments with
    | "--" :: rest => rest
    | all => all
  if words.isEmpty then
    complain invocation.name "missing operand"
    tryHelp invocation.name
    return 2
  match Expression.evaluate words with
  | .ok value =>
    outputOr invocation.name (value ++ "\n").toUTF8 (if Expression.isNull value then 1 else 0)
  | .error failure =>
    complain invocation.name <| match failure with
      | .syntaxError message => message
      | .notInteger => "non-integer argument"
      | .divisionByZero => "division by zero"
      | .pattern mistake => mistake.text
    return 2

end PipelineShell.Utility
