import PipelineShell.Script.Builtin.Basic
import PipelineShell.Utility.Condition

/-!
# Conditions in scripts

Three words with an operator in the middle are a comparison, whatever the others are. Otherwise a
condition is read from the left, and a word is an operator only where it can be one.
-/

namespace PipelineShell.Script.Builtin

open PipelineShell.Action Eval

namespace Test

inductive Role
  | finish
  | operand
  | unary
  | binary
  | negation
  | conjunction
  | disjunction
  | opening
  | closing
deriving DecidableEq

def unaryOperators : List String := [
  "-b", "-c", "-d", "-e", "-f", "-g", "-h", "-k", "-L", "-n", "-p", "-r", "-s", "-S", "-t", "-u",
  "-w", "-x", "-z", "-O", "-G"]

def binaryOperators : List String := [
  "=", "!=", "<", ">", "-eq", "-ne", "-lt", "-le", "-gt", "-ge", "-nt", "-ot", "-ef"]

def leavesOperand : List String → Bool
  | [] => true
  | [_] => false
  | next :: _ => binaryOperators.contains next

def role : List String → Role
  | [] => .finish
  | word :: rest =>
    if unaryOperators.contains word then if leavesOperand rest then .operand else .unary
    else if binaryOperators.contains word then .binary
    else
      match word with
      | "!" => .negation
      | "-a" => .conjunction
      | "-o" => .disjunction
      | "(" => if rest.isEmpty then .operand else .opening
      | ")" => .closing
      | _ => .operand

def decideBetween (operator left right : String) : Eval (Except Utility.ConditionError Bool) := do
  let isTooLarge (text : String) : Bool :=
    match Utility.Condition.number text with
    | .ok value => value < -0x8000000000000000 || 0x7fffffffffffffff < value
    | .error _ => false
  if operator ∈ ["-eq", "-ne", "-lt", "-le", "-gt", "-ge"] then
    match [left, right].find? isTooLarge with
    | some text => return .error (.notInteger text)
    | none => act (Utility.Condition.decideBinary operator left right)
  else act (Utility.Condition.decideBinary operator left right)

def found (result : Except Utility.ConditionError Bool) : Eval Bool := do
  match result with
  | .ok value => return value
  | .error (.notInteger text) => Eval.fail ("Illegal number: " ++ text)
  | .error _ => return false

mutual

def disjunction (bound : Nat) (words : List String) : Eval (Bool × List String) := do
  match bound with
  | 0 => return (false, [])
  | bound + 1 =>
    let (left, rest) ← conjunction bound words
    if role rest = .disjunction then
      let (right, rest) ← disjunction bound (rest.drop 1)
      return (left || right, rest)
    return (left, rest)

def conjunction (bound : Nat) (words : List String) : Eval (Bool × List String) := do
  match bound with
  | 0 => return (false, [])
  | bound + 1 =>
    let (left, rest) ← negation bound words
    if role rest = .conjunction then
      let (right, rest) ← conjunction bound (rest.drop 1)
      return (left && right, rest)
    return (left, rest)

def negation (bound : Nat) (words : List String) : Eval (Bool × List String) := do
  match bound with
  | 0 => return (false, [])
  | bound + 1 =>
    if role words = .negation then
      let (value, rest) ← negation bound (words.drop 1)
      return (!value, rest)
    primary bound words

def primary (bound : Nat) (words : List String) : Eval (Bool × List String) := do
  match bound with
  | 0 => return (false, [])
  | bound + 1 =>
    match role words, words with
    | .opening, _ :: rest =>
      if role rest = .closing then return (false, rest.drop 1)
      let (value, rest) ← disjunction bound rest
      if role rest ≠ .closing then Eval.fail "closing paren expected"
      return (value, rest.drop 1)
    | .unary, operator :: rest =>
      match rest with
      | operand :: rest =>
        return (← found (← act (Utility.Condition.decideUnary operator operand)), rest)
      | [] => Eval.fail (operator ++ ": argument expected")
    | _, word :: rest =>
      match role rest, rest with
      | .binary, operator :: operand :: rest =>
        return (← found (← decideBetween operator word operand), rest)
      | .binary, [operator] => Eval.fail (operator ++ ": argument expected")
      | _, _ => return (!word.isEmpty, rest)
    | _, [] => return (false, [])

end

def decideAll (words : List String) : Eval Bool := do
  let (value, rest) ← disjunction (6 * words.length + 6) words
  if !rest.isEmpty then
    let last := (words.take (words.length - rest.length)).getLast?.getD ""
    Eval.fail (last ++ ": unexpected operator")
  return value

def decide (words : List String) : Eval Bool := do
  match words with
  | [] => return false
  | [left, operator, right] =>
    if binaryOperators.contains operator then
      found (← decideBetween operator left right)
    else if left = "(" && right = ")" then decideAll [operator]
    else if left = "!" then return !(← decideAll [operator, right])
    else decideAll words
  | ["!", left, operator, right] =>
    if binaryOperators.contains operator then
      return !(← found (← decideBetween operator left right))
    else if left = "(" && right = ")" then return !(← decideAll [operator])
    else if left = "!" then return !(← decideAll [operator, right])
    else return !(← decideAll [left, operator, right])
  | ["(", first, second, ")"] => decideAll [first, second]
  | _ => decideAll words

end Test

def test : Builtin := fun arguments => do
  return if ← Test.decide arguments then 0 else 1

def bracket : Builtin := fun arguments => do
  match arguments.reverse with
  | "]" :: words => test words.reverse
  | _ => Eval.fail "missing ]"

end PipelineShell.Script.Builtin
