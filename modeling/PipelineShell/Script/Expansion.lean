import PipelineShell.Script.Arithmetic
import PipelineShell.Script.Glob
import PipelineShell.Script.Reader
import PipelineShell.Script.State
import PipelineShell.Utility.Processes

/-!
# Expanding words

A word becomes any number of fields: what comes out of expansions is split at separators unless it
is quoted, and fields that are patterns are replaced by the paths that they match. Running the
commands in a word is left to a parameter.
-/

namespace PipelineShell.Script

structure Fields where
  finished : List Field := []
  current : Option Field := none

namespace Fields

def all (fields : Fields) : List Field :=
  ((fields.current.toList ++ fields.finished).map List.reverse).reverse

def start (fields : Fields) : Fields := { fields with current := some (fields.current.getD []) }

def push (fields : Fields) (cell : Cell) : Fields :=
  { fields with current := some (cell :: fields.current.getD []) }

def append (fields : Fields) (special : Bool) (text : List Char) : Fields :=
  text.foldl (fun fields c => fields.push ⟨c, special⟩) fields

def finish (fields : Fields) : Fields :=
  match fields.current with
  | some field => ⟨field :: fields.finished, none⟩
  | none => fields

def isSpace (separators : List Char) (c : Char) : Bool :=
  separators.contains c && (c = ' ' || c = '\t' || c = '\n')

/-- Appends text and splits it at separators. Blanks end a field; any other separator ends one even
if that is empty, unless blanks have ended it just before, which is what `ended` says. -/
def appendSplit (separators : List Char) (ended : Bool) (fields : Fields) : List Char → Fields
  | [] => fields
  | c :: rest =>
    if isSpace separators c then
      appendSplit separators (ended || fields.current.isSome) fields.finish rest
    else if separators.contains c then
      if ended && fields.current.isNone then appendSplit separators false fields rest
      else appendSplit separators false fields.start.finish rest
    else appendSplit separators false (fields.push ⟨c, true⟩) rest

end Fields

inductive Splitting
  | split
  | whole
  | quoted
deriving DecidableEq

namespace Expansion

open Eval

def appendText (fields : Fields) (splitting : Splitting) (text : String) : Eval Fields := do
  match splitting with
  | .quoted => return fields.start.append false text.toList
  | .whole => return fields.append true text.toList
  | .split => return Fields.appendSplit (← get).separators false fields text.toList

def appendEach (fields : Fields) (splitting : Splitting) : List String → Eval Fields
  | [] => return fields
  | [text] => appendText fields splitting text
  | text :: rest => do
    let fields ← appendText fields splitting text
    appendEach fields.finish splitting rest

def flagLetters : List Char := "pubaCEVvxsnmiIfe".toList

def parameterValue? (shell : Shell) (name : String) : Option String :=
  match name.toList with
  | ['?'] => some (toString shell.status)
  | ['$'] => some (toString shell.pid)
  | ['#'] => some (toString shell.positional.length)
  | ['!'] => shell.background.map fun (pid : Int) => toString pid
  | ['-'] => some (String.ofList (flagLetters.filter shell.flags.contains))
  | ['0'] => some shell.name
  | ['@'] | ['*'] =>
    if shell.positional.isEmpty then none
    else
      let joint := match shell.separators with
        | c :: _ => c.toString
        | [] => ""
      some (joint.intercalate shell.positional)
  | c :: _ =>
    if c.isDigit then
      let index := name.toList.foldl (fun n c => n * 10 + (c.toNat - '0'.toNat)) 0
      shell.positional[index - 1]?
    else shell.value? name
  | [] => none

def trimFront (pattern : Field) (longest : Bool) (text : List Char) : List Char :=
  let lengths := List.range (text.length + 1)
  let lengths := if longest then lengths.reverse else lengths
  match lengths.find? fun n => pattern.fits (text.take n) with
  | some n => text.drop n
  | none => text

def trimBack (pattern : Field) (longest : Bool) (text : List Char) : List Char :=
  let lengths := List.range (text.length + 1)
  let lengths := if longest then lengths else lengths.reverse
  match lengths.find? fun n => pattern.fits (text.drop n) with
  | some n => text.take n
  | none => text

def withoutTrailingNewlines (text : List Char) : List Char :=
  (text.reverse.dropWhile (· = '\n')).reverse

def homeOf? (home : Option String) (user : List Char) : Option String :=
  if user.isEmpty then home
  else if user = Utility.userName.toList then some ("/" ++ Utility.userName)
  else none

def expandTilde (home : Option String) (parts : List Part) : List Part :=
  match parts with
  | .plain ('~' :: rest) :: others =>
    let user := rest.takeWhile (· ≠ '/')
    let after := rest.drop user.length
    match homeOf? home user with
    | some directory =>
      if after.isEmpty && !others.isEmpty then parts
      else .quoted directory.toList :: .plain after :: others
    | none => parts
  | _ => parts

def compute (text : String) : Eval Int := do
  let shell ← get
  let result := do
    let term ← Term.read text.toList
    term.evaluate (fun name => shell.value? name) []
  match result with
  | .ok (value, assigned) =>
    for (name, value) in assigned.reverse do assign name (toString value)
    return value
  | .error failure => fail (failure.message text)

mutual

def expandParts (run : List Item → Eval (List Char)) (splitting : Splitting) (bound : Nat)
    (fields : Fields) (parts : List Part) : Eval Fields := do
  match bound with
  | 0 => return fields
  | bound + 1 =>
    match parts with
    | [] => return fields
    | part :: rest =>
      let fields ← expandPart run splitting bound fields part
      expandParts run splitting bound fields rest

def expandPart (run : List Item → Eval (List Char)) (splitting : Splitting) (bound : Nat)
    (fields : Fields) (part : Part) : Eval Fields := do
  match bound with
  | 0 => return fields
  | bound + 1 =>
    match part with
    | .plain text => return fields.append (splitting ≠ .quoted) text
    | .quoted text => return fields.start.append false text
    | .doubled parts =>
      match parts with
      | [.parameter "@" .value] =>
        if (← get).positional.isEmpty then return fields
        expandParts run .quoted bound fields parts
      | _ => expandParts run .quoted bound fields.start parts
    | .command body =>
      let output ← run body
      let text := withoutTrailingNewlines (output.filter (· ≠ '\x00'))
      appendText fields splitting (String.ofList text)
    | .arithmetic parts =>
      let inner ← expandParts run .quoted bound {} parts
      let value ← compute (String.join (inner.all.map Field.text))
      appendText fields splitting (toString value)
    | .parameter name use => expandParameter run splitting bound fields name use

def expandParameter (run : List Item → Eval (List Char)) (splitting : Splitting) (bound : Nat)
    (fields : Fields) (name : String) (use : Use) : Eval Fields := do
  match bound with
  | 0 => return fields
  | bound + 1 =>
    let shell ← get
    let value := parameterValue? shell name
    let isList := name = "@" || name = "*"
    let present (ifEmpty : Bool) : Bool :=
      match value with
      | some text => !(ifEmpty && text.isEmpty)
      | none => false
    let appendValue : Eval Fields := do
      match value with
      | none =>
        if shell.hasFlag 'u' && !isList && name ≠ "!" then fail (name ++ ": parameter not set")
        return fields
      | some text =>
        if isList && (name = "@" || splitting = .split) then
          appendEach fields splitting shell.positional
        else appendText fields splitting text
    match use with
    | .invalid => fail "Bad substitution"
    | .value => appendValue
    | .length =>
      if isList then appendText fields splitting (toString shell.positional.length)
      else
        if value.isNone && shell.hasFlag 'u' then fail (name ++ ": parameter not set")
        appendText fields splitting (toString (value.getD "").utf8ByteSize)
    | .orElse ifEmpty word =>
      if present ifEmpty then appendValue
      else expandParts run splitting bound fields word
    | .instead ifEmpty word =>
      if present ifEmpty then expandParts run splitting bound fields word else return fields
    | .orAssign ifEmpty word =>
      if present ifEmpty then appendValue
      else
        if !Reader.isName name.toList then fail (name ++ ": bad variable name")
        let inner ← expandParts run .whole bound {} word
        let text := String.join (inner.all.map Field.text)
        assign name text
        appendText fields splitting text
    | .orFail ifEmpty word =>
      if present ifEmpty then appendValue
      else
        let inner ← expandParts run .whole bound {} word
        let text := String.join (inner.all.map Field.text)
        fail (name ++ ": " ++
          if word.isEmpty then "parameter not set" ++ (if ifEmpty then " or null" else "")
          else text)
    | .trim front longest pattern =>
      if value.isNone && shell.hasFlag 'u' then fail (name ++ ": parameter not set")
      let inner ← expandParts run .whole bound {} pattern
      let pattern := inner.all.flatten
      let text := (value.getD "").toList
      let trimmed :=
        if front then trimFront pattern longest text else trimBack pattern longest text
      appendText fields splitting (String.ofList trimmed)

end

def limit : Nat := 0x10000000000

def fieldsOf (run : List Item → Eval (List Char)) (word : Word) : Eval (List Field) := do
  let word := expandTilde ((← get).value? "HOME") word
  return (← expandParts run .split limit {} word).all

def texts (run : List Item → Eval (List Char)) (word : Word) : Eval (List String) := do
  let fields ← fieldsOf run word
  if (← get).hasFlag 'f' then return fields.map Field.text
  return (← fields.mapM fun field => act field.paths).flatten

def allTexts (run : List Item → Eval (List Char)) (words : List Word) : Eval (List String) := do
  return (← words.mapM (texts run)).flatten

def pattern (run : List Item → Eval (List Char)) (word : Word) : Eval Field := do
  let word := expandTilde ((← get).value? "HOME") word
  return (← expandParts run .whole limit {} word).all.flatten

def text (run : List Item → Eval (List Char)) (word : Word) : Eval String := do
  return (← pattern run word).text

end Expansion

end PipelineShell.Script
