/-!
# Arithmetic in scripts

Whole numbers of 64 bits, with the operators of the C language. Variables are read when their
values are needed, and assignments come back with the result.
-/

namespace PipelineShell.Script

inductive Term
  | number (value : Int)
  | named (name : String)
  | unary (operator : String) (operand : Term)
  | binary (operator : String) (left right : Term)
  | conditional (condition ifTrue ifFalse : Term)
  | assign (name : String) (operator : Option String) (value : Term)

namespace Term

inductive Failure
  | malformed (message : String)
  | notNumeric (text : String)
  | divisionByZero

inductive Token
  | number (value : Int)
  | name (text : String)
  | operator (text : String)
  | other
deriving DecidableEq

def operators : List String := [
  "<<=", ">>=", "<<", ">>", "<=", ">=", "==", "!=", "&&", "||", "+=", "-=", "*=", "/=", "%=", "&=",
  "^=", "|=", "+", "-", "*", "/", "%", "&", "|", "^", "!", "~", "<", ">", "=", "?", ":", "(", ")"]

def digitValue (c : Char) : Nat :=
  if c.isDigit then c.toNat - '0'.toNat
  else if 'a' ≤ c && c ≤ 'f' then c.toNat - 'a'.toNat + 10
  else c.toNat - 'A'.toNat + 10

def isHexDigit (c : Char) : Bool :=
  c.isDigit || ('a' ≤ c && c ≤ 'f') || ('A' ≤ c && c ≤ 'F')

def largest : Nat := 0x7fffffffffffffff

/-- Reads a number, hexadecimal after `0x`, octal after a zero, or decimal, as far as its digits go.
Returns how many characters it takes. -/
def readNumber (text : List Char) : Nat × Nat :=
  let value (base : Nat) (digits : List Char) : Nat :=
    min largest (digits.foldl (fun n c => n * base + digitValue c) 0)
  let hexadecimal (x : Char) (rest : List Char) : Option (Nat × Nat) :=
    let digits := rest.takeWhile isHexDigit
    if (x = 'x' || x = 'X') && !digits.isEmpty then some (value 16 digits, digits.length + 2)
    else none
  let octal (digits : List Char) : Nat × Nat :=
    let digits := digits.takeWhile fun c => '0' ≤ c && c ≤ '7'
    (value 8 digits, digits.length + 1)
  match text with
  | '0' :: x :: rest => (hexadecimal x rest).getD (octal (x :: rest))
  | '0' :: rest => octal rest
  | digits =>
    let digits := digits.takeWhile Char.isDigit
    (value 10 digits, digits.length)

def isSpace (c : Char) : Bool := c = ' ' || c = '\t' || c = '\n'

def tokens (skip : Nat) : List Char → List Token
  | [] => []
  | c :: rest =>
    match skip with
    | skip + 1 => tokens skip rest
    | 0 =>
      if isSpace c then tokens 0 rest
      else if c.isDigit then
        let (value, length) := readNumber (c :: rest)
        .number value :: tokens (length - 1) rest
      else if c.isAlpha || c = '_' then
        let text := (c :: rest).takeWhile fun c => c.isAlphanum || c = '_'
        .name (String.ofList text) :: tokens (text.length - 1) rest
      else
        match operators.find? fun operator => operator.toList.isPrefixOf (c :: rest) with
        | some operator => .operator operator :: tokens (operator.length - 1) rest
        | none => [.other]

def levels : List (List String) := [
  ["||"], ["&&"], ["|"], ["^"], ["&"], ["==", "!="], ["<", "<=", ">", ">="], ["<<", ">>"],
  ["+", "-"], ["*", "/", "%"]]

def assignments : List String := ["=", "+=", "-=", "*=", "/=", "%=", "<<=", ">>=", "&=", "^=", "|="]

mutual

def readAssignment : Nat → List Token → Except Failure (Term × List Token)
  | 0, _ => .error (.malformed "expecting primary")
  | bound + 1, tokens => do
    match tokens with
    | .name name :: .operator operator :: rest =>
      if assignments.contains operator then
        let (value, rest) ← readAssignment bound rest
        let combined := if operator = "=" then none else some (operator.dropEnd 1).toString
        return (.assign name combined value, rest)
      else readConditional bound tokens
    | _ => readConditional bound tokens

def readConditional : Nat → List Token → Except Failure (Term × List Token)
  | 0, _ => .error (.malformed "expecting primary")
  | bound + 1, tokens => do
    let (condition, rest) ← readLevel bound levels tokens
    match rest with
    | .operator "?" :: rest =>
      let (ifTrue, rest) ← readAssignment bound rest
      match rest with
      | .operator ":" :: rest =>
        let (ifFalse, rest) ← readConditional bound rest
        return (.conditional condition ifTrue ifFalse, rest)
      | _ => throw (.malformed "expecting ':'")
    | _ => return (condition, rest)

def readLevel (bound : Nat) (operators : List (List String)) (tokens : List Token) :
    Except Failure (Term × List Token) := do
  match bound with
  | 0 => throw (.malformed "expecting primary")
  | bound + 1 =>
    match operators with
    | [] => readOperand bound tokens
    | level :: tighter =>
      let (left, rest) ← readLevel bound tighter tokens
      readMore bound level tighter left rest

def readMore (bound : Nat) (level : List String) (tighter : List (List String)) (left : Term)
    (tokens : List Token) : Except Failure (Term × List Token) := do
  match bound with
  | 0 => throw (.malformed "expecting primary")
  | bound + 1 =>
    match tokens with
    | .operator operator :: rest =>
      if level.contains operator then
        let (right, rest) ← readLevel bound tighter rest
        readMore bound level tighter (.binary operator left right) rest
      else return (left, tokens)
    | _ => return (left, tokens)

def readOperand : Nat → List Token → Except Failure (Term × List Token)
  | 0, _ => .error (.malformed "expecting primary")
  | bound + 1, tokens => do
    match tokens with
    | .number value :: rest => return (.number value, rest)
    | .name name :: rest => return (.named name, rest)
    | .operator "(" :: rest =>
      match ← readAssignment bound rest with
      | (inner, .operator ")" :: rest) => return (inner, rest)
      | _ => throw (.malformed "expecting ')'")
    | .operator operator :: rest =>
      if operator ∈ ["-", "+", "!", "~"] then
        let (operand, rest) ← readOperand bound rest
        return (.unary operator operand, rest)
      else throw (.malformed "expecting primary")
    | .other :: _ | [] => throw (.malformed "expecting primary")

end

def read (text : List Char) : Except Failure Term := do
  let tokens := tokens 0 text
  match ← readAssignment (16 * tokens.length + 32) tokens with
  | (term, []) => return term
  | _ => throw (.malformed "expecting EOF")

def wordSize : Nat := 0x10000000000000000

def wrap (value : Int) : Int := Int.bmod value wordSize

def truth (value : Bool) : Int := if value then 1 else 0

def bits (value : Int) : Nat := (value % (wordSize : Int)).toNat

def apply (operator : String) (a b : Int) : Except Failure Int :=
  match operator with
  | "|" => .ok (wrap (bits a ||| bits b))
  | "^" => .ok (wrap (bits a ^^^ bits b))
  | "&" => .ok (wrap (bits a &&& bits b))
  | "==" => .ok (truth (a = b))
  | "!=" => .ok (truth (a ≠ b))
  | "<" => .ok (truth (a < b))
  | "<=" => .ok (truth (a ≤ b))
  | ">" => .ok (truth (a > b))
  | ">=" => .ok (truth (a ≥ b))
  | "<<" => .ok (wrap (a * (1 <<< (b % 64).toNat : Nat)))
  | ">>" => .ok (a.fdiv (1 <<< (b % 64).toNat : Nat))
  | "+" => .ok (wrap (a + b))
  | "-" => .ok (wrap (a - b))
  | "*" => .ok (wrap (a * b))
  | "/" => if b = 0 then .error .divisionByZero else .ok (wrap (a.tdiv b))
  | _ => if b = 0 then .error .divisionByZero else .ok (a.tmod b)

abbrev Assigned := List (String × Int)

def variableValue (lookup : String → Option String) (assigned : Assigned) (name : String) :
    Except Failure Int :=
  match assigned.lookup name with
  | some value => .ok value
  | none =>
    let text := (lookup name).getD ""
    let negated (sign : Char) (value : Int) : Int := if sign = '-' then -value else value
    match text.toList.dropWhile isSpace with
    | [] => .ok 0
    | sign :: rest =>
      let signed := sign = '-' || sign = '+'
      let body := if signed then rest else sign :: rest
      let (value, length) := readNumber body
      let isNumber := body.head?.any Char.isDigit && (body.drop length).all isSpace
      if isNumber then .ok (negated sign value) else .error (.notNumeric text)

def evaluate (lookup : String → Option String) :
    Term → Assigned → Except Failure (Int × Assigned)
  | number value, assigned => .ok (wrap value, assigned)
  | named name, assigned => do
    return (← variableValue lookup assigned name, assigned)
  | unary operator operand, assigned => do
    let (value, assigned) ← operand.evaluate lookup assigned
    return (match operator with
      | "-" => wrap (-value)
      | "!" => truth (value = 0)
      | "~" => wrap (-value - 1)
      | _ => value, assigned)
  | binary operator left right, assigned => do
    let (a, assigned) ← left.evaluate lookup assigned
    if operator = "&&" && a = 0 then return (0, assigned)
    else if operator = "||" && a ≠ 0 then return (1, assigned)
    else
      let (b, assigned) ← right.evaluate lookup assigned
      if operator = "&&" || operator = "||" then return (truth (b ≠ 0), assigned)
      else return (← apply operator a b, assigned)
  | conditional condition ifTrue ifFalse, assigned => do
    let (value, assigned) ← condition.evaluate lookup assigned
    if value ≠ 0 then ifTrue.evaluate lookup assigned else ifFalse.evaluate lookup assigned
  | assign name operator term, assigned => do
    let (value, assigned) ← term.evaluate lookup assigned
    let result ← match operator with
      | none => pure value
      | some operator => do
        let old ← variableValue lookup assigned name
        apply operator old value
    return (result, (name, result) :: assigned)

def Failure.message (text : String) : Failure → String
  | malformed message => "arithmetic expression: " ++ message ++ ": \"" ++ text ++ "\""
  | notNumeric value => "Illegal number: " ++ value
  | divisionByZero => "arithmetic expression: division by zero: \"" ++ text ++ "\""

end Term

end PipelineShell.Script
