import PipelineShell.Utility.Basic

namespace PipelineShell.Utility

open PipelineShell.Action Host

inductive Condition
  | text (text : String)
  | unary (operator : String) (operand : String)
  | binary (operator : String) (left right : String)
  | negation (inner : Condition)
  | conjunction (left right : Condition)
  | disjunction (left right : Condition)

inductive ConditionError
  | missingArgument (after : String)
  | extraArgument (text : String)
  | expectedOperator (text : String)
  | expectedBinary (text : String)
  | expectedUnary (text : String)
  | notInteger (text : String)
deriving DecidableEq

namespace Condition

def unaryOperators : List String := [
  "-b", "-c", "-d", "-e", "-f", "-g", "-h", "-k", "-L", "-n", "-p", "-r", "-s", "-S", "-t", "-u",
  "-w", "-x", "-z", "-O", "-G"]

def binaryOperators : List String := [
  "=", "==", "!=", "<", ">", "-eq", "-ne", "-lt", "-le", "-gt", "-ge", "-nt", "-ot", "-ef"]

def isUnary (word : String) : Bool := unaryOperators.contains word
def isBinary (word : String) : Bool := binaryOperators.contains word

mutual

def readDisjunction : Nat → List String → Except ConditionError (Condition × List String)
  | 0, _ => .error (.missingArgument "")
  | bound + 1, words => do
    let (left, rest) ← readConjunction bound words
    match rest with
    | "-o" :: rest =>
      let (right, rest) ← readDisjunction bound rest
      return (.disjunction left right, rest)
    | _ => return (left, rest)

def readConjunction : Nat → List String → Except ConditionError (Condition × List String)
  | 0, _ => .error (.missingArgument "")
  | bound + 1, words => do
    let (left, rest) ← readTerm bound words
    match rest with
    | "-a" :: rest =>
      let (right, rest) ← readConjunction bound rest
      return (.conjunction left right, rest)
    | _ => return (left, rest)

def readTerm : Nat → List String → Except ConditionError (Condition × List String)
  | 0, _ => .error (.missingArgument "")
  | bound + 1, words => do
    match words with
    | [] => throw (.missingArgument "")
    | "!" :: rest =>
      let (inner, rest) ← readTerm bound rest
      return (.negation inner, rest)
    | "(" :: rest =>
      match ← readDisjunction bound rest with
      | (inner, ")" :: rest) => return (inner, rest)
      | (_, _) => throw (.missingArgument ")")
    | first :: operator :: third :: rest =>
      if isBinary operator then return (.binary operator first third, rest)
      else if isUnary first then return (.unary first operator, third :: rest)
      else return (.text first, operator :: third :: rest)
    | [first, second] =>
      if isUnary first then return (.unary first second, [])
      else return (.text first, [second])
    | [first] => return (.text first, [])

end

def readOne (word : String) : Condition := .text word

def readTwo (first second : String) : Except ConditionError Condition :=
  if first = "!" then .ok (.negation (readOne second))
  else if isUnary first then .ok (.unary first second)
  else if first.startsWith "-" && first.length = 2 then .error (.expectedUnary first)
  else .error (.missingArgument second)

def readThree (first second third : String) : Except ConditionError Condition :=
  if isBinary second then .ok (.binary second first third)
  else if second = "-a" then .ok (.conjunction (readOne first) (readOne third))
  else if second = "-o" then .ok (.disjunction (readOne first) (readOne third))
  else if first = "!" then (readTwo second third).map .negation
  else if first = "(" && third = ")" then .ok (readOne second)
  else .error (.expectedBinary second)

def read (words : List String) : Except ConditionError Condition :=
  match words with
  | [] => .ok (.text "")
  | [one] => .ok (readOne one)
  | [first, second] => readTwo first second
  | [first, second, third] => readThree first second third
  | first :: rest =>
    match first, rest with
    | "!", [a, b, c] => (readThree a b c).map .negation
    | _, _ =>
      match readDisjunction (4 * words.length + 4) words with
      | .ok (condition, []) => .ok condition
      | .ok (_, extra :: _) => .error (.extraArgument extra)
      | .error error => .error error

def number (text : String) : Except ConditionError Int :=
  match integer? (String.ofList (((text.toList.dropWhile (· = ' ')).reverse.dropWhile
    (· = ' ')).reverse)) with
  | some value => .ok value
  | none => .error (.notInteger text)

def info? (path : String) (follow : Bool) : Action (Option FileInfo) := do
  return (← perform (.fileInfo path follow)).toOption

def ofKind (path : String) (follow : Bool) (kind : FileKind) : Action Bool := do
  return (← info? path follow).any (·.kind = kind)

def decideUnary (operator operand : String) : Action (Except ConditionError Bool) := do
  match operator with
  | "-n" => return .ok (!operand.isEmpty)
  | "-z" => return .ok operand.isEmpty
  | "-e" => return .ok (← info? operand true).isSome
  | "-f" => return .ok (← ofKind operand true .regular)
  | "-d" => return .ok (← ofKind operand true .directory)
  | "-h" | "-L" => return .ok (← ofKind operand false .link)
  | "-p" => return .ok (← ofKind operand true .pipe)
  | "-c" =>
    return .ok ((← info? operand true).any fun info =>
      info.kind = .device || info.kind = .terminal)
  | "-s" => return .ok ((← info? operand true).any (0 < ·.size))
  | "-r" => return .ok (← perform (.canAccess operand true false false)).isOk
  | "-w" => return .ok (← perform (.canAccess operand false true false)).isOk
  | "-x" => return .ok (← perform (.canAccess operand false false true)).isOk
  | "-O" | "-G" => return .ok (← info? operand true).isSome
  | "-t" =>
    match number operand with
    | .error error => return .error error
    | .ok value =>
      if value < 0 then return .ok false
      return .ok ((← perform (.isTerminal value.toNat)).toOption.getD false)
  | _ => return .ok false

def decideBinary (operator left right : String) : Action (Except ConditionError Bool) := do
  let numbers (relation : Int → Int → Bool) : Except ConditionError Bool := do
    return relation (← number left) (← number right)
  let order := compare left.toUTF8.toList right.toUTF8.toList
  match operator with
  | "=" | "==" => return .ok (left = right)
  | "!=" => return .ok (left ≠ right)
  | "<" => return .ok (order = .lt)
  | ">" => return .ok (order = .gt)
  | "-eq" => return numbers (· == ·)
  | "-ne" => return numbers (· != ·)
  | "-lt" => return numbers fun a b => a < b
  | "-le" => return numbers fun a b => a ≤ b
  | "-gt" => return numbers fun a b => a > b
  | "-ge" => return numbers fun a b => a ≥ b
  | "-ef" =>
    let a ← info? left true
    let b ← info? right true
    return .ok (a.isSome && a.map (·.identity) = b.map (·.identity))
  | "-nt" => return .ok ((← info? left true).isSome && (← info? right true).isNone)
  | _ => return .ok ((← info? left true).isNone && (← info? right true).isSome)

def decide : Condition → Action (Except ConditionError Bool)
  | text word => return .ok (!word.isEmpty)
  | unary operator operand => decideUnary operator operand
  | binary operator left right => decideBinary operator left right
  | negation inner => do
    match ← inner.decide with
    | .ok value => return .ok (!value)
    | error => return error
  | conjunction left right => do
    match ← left.decide with
    | .ok true => right.decide
    | result => return result
  | disjunction left right => do
    match ← left.decide with
    | .ok false => right.decide
    | result => return result

def decideWords (words : List String) : Action (Except ConditionError Bool) :=
  match read words with
  | .ok condition => condition.decide
  | .error error => return .error error

end Condition

def ConditionError.message : ConditionError → String
  | missingArgument after => "missing argument after " ++ quoted after
  | extraArgument text => "extra argument " ++ quoted text
  | expectedOperator text | expectedBinary text => quoted text ++ ": binary operator expected"
  | expectedUnary text => quoted text ++ ": unary operator expected"
  | notInteger text => "invalid integer " ++ quoted text

def decideFor (name : String) (words : List String) : Action Nat := do
  match ← Condition.decideWords words with
  | .ok value => return if value then 0 else 1
  | .error error =>
    complain name error.message
    return 2

def test : Program := fun invocation => decideFor invocation.name invocation.arguments

def bracket : Program := fun invocation => do
  match invocation.arguments.reverse with
  | "]" :: words => decideFor invocation.name words.reverse
  | _ =>
    complain invocation.name "missing ']'"
    return 2

end PipelineShell.Utility
