import PipelineShell.Utility.Format
import PipelineShell.Utility.Output

/-!
# Sequences of numbers

`seq` counts from one number to another in steps. Numbers are decimal; all of them are held as
whole multiples of the smallest place that any of them has. `factor` takes whole numbers apart.
-/

namespace PipelineShell.Utility

open PipelineShell.Action Host

namespace Seq

structure Decimal where
  digits : Int
  places : Nat

def readDigits (digits : List Char) : Nat :=
  digits.foldl (fun value c => value * 10 + (c.toNat - '0'.toNat)) 0

def readExponent? : List Char → Option Int
  | [] => some 0
  | e :: rest =>
    let (negative, digits) := match rest with
      | '-' :: digits => (true, digits)
      | '+' :: digits => (false, digits)
      | digits => (false, digits)
    if (e ≠ 'e' && e ≠ 'E') || digits.isEmpty || digits.any (!·.isDigit) || 4 < digits.length then
      none
    else some (if negative then -(readDigits digits : Int) else readDigits digits)

def readDecimal? (text : String) : Option Decimal :=
  let (negative, unsigned) := match text.toList with
    | '-' :: rest => (true, rest)
    | '+' :: rest => (false, rest)
    | all => (false, all)
  let whole := unsigned.takeWhile Char.isDigit
  let (places, rest) := match unsigned.dropWhile Char.isDigit with
    | '.' :: rest => (rest.takeWhile Char.isDigit, rest.dropWhile Char.isDigit)
    | rest => ([], rest)
  if whole.isEmpty && places.isEmpty then none
  else
    (readExponent? rest).map fun (exponent : Int) =>
      let shift : Int := exponent - places.length
      let value := readDigits (whole ++ places) * Nat.pow 10 shift.toNat
      ⟨if negative then -(value : Int) else value, (-shift).toNat⟩

def Decimal.scaledTo (places : Nat) (number : Decimal) : Int :=
  number.digits * (Nat.pow 10 (places - number.places) : Nat)

def text (places : Nat) (value : Int) : String :=
  let digits := (toString value.natAbs).toList
  let padded := List.replicate (places + 1 - digits.length) '0' ++ digits
  let whole := padded.take (padded.length - places)
  let rest := padded.drop (padded.length - places)
  (if value < 0 then "-" else "") ++ String.ofList whole ++
    (if rest.isEmpty then "" else "." ++ String.ofList rest)

def withZeros (width : Nat) (text : String) : String :=
  let zeros := List.replicate (width - text.length) '0'
  match text.toList with
  | '-' :: digits => String.ofList ('-' :: zeros ++ digits)
  | digits => String.ofList (zeros ++ digits)

structure Template where
  before : String
  conversion : Format.Conversion
  after : String

def upToDirective : List Char → List Char × List Char
  | '%' :: '%' :: rest =>
    let (before, directive) := upToDirective rest
    ('%' :: before, directive)
  | '%' :: rest => ([], '%' :: rest)
  | c :: rest =>
    let (before, directive) := upToDirective rest
    (c :: before, directive)
  | [] => ([], [])

def readTemplate (text : String) : Except String Template := do
  let about (problem : String) : String := "format " ++ quoted text ++ " " ++ problem
  let (before, directive) := upToDirective text.toList
  if directive.isEmpty then throw (about "has no % directive")
  match Format.readConversion (directive.drop 1) with
  | (.conversion conversion, length) =>
    if !Format.floatingKinds.contains conversion.kind then
      throw (about ("has unknown %" ++ conversion.kind.toString ++ " directive"))
    let (after, more) := upToDirective (directive.drop (length + 1))
    if !more.isEmpty then throw (about "has too many % directives")
    return ⟨String.ofList before, conversion, String.ofList after⟩
  | (_, length) =>
    match (directive.drop 1).take length |>.getLast? with
    | some kind =>
      if kind.isDigit || kind = '.' || Format.isFlag kind then throw (about "ends in %")
      throw (about ("has unknown %" ++ kind.toString ++ " directive"))
    | none => throw (about "ends in %")

def Template.text (template : Template) (places : Nat) (value : Int) : String :=
  let number : Floating.Value := .finite (value < 0) ⟨value.natAbs, Nat.pow 10 places⟩
  let conversion := template.conversion
  let bytes := Format.formatFloating conversion (conversion.width.join.getD 0)
    conversion.precision.join number
  template.before ++ (String.fromUTF8? ⟨bytes.toArray⟩).getD "" ++ template.after

structure Options where
  separator : String := "\n"
  equalWidth : Bool := false
  template : Option Template := none

def table : OptionTable where
  flags := ['w']
  values := ['s', 'f']
  permutes := false
  long := [("separator", 's'), ("equal-width", 'w'), ("format", 'f')]

def withMark : List String → List String
  | [] => []
  | argument :: rest =>
    match argument.toList with
    | '-' :: c :: _ =>
      if c.isDigit || c = '.' then "--" :: argument :: rest
      else if argument ∈ ["-s", "-f", "--separator", "--format"] then
        match rest with
        | value :: rest => argument :: value :: withMark rest
        | [] => [argument]
      else if argument = "--" then argument :: rest
      else argument :: withMark rest
    | _ => argument :: rest

def blockLength : Nat := 512

def write (options : Options) (first step last : Decimal) : Action Nat := do
  let shown := max first.places step.places
  let places := max shown last.places
  let unit : Nat := Nat.pow 10 (places - shown)
  let start := first.scaledTo places
  let step := step.scaledTo places
  let last := last.scaledTo places
  let width :=
    if options.equalWidth then
      max (text shown (start / unit)).length (text shown (last.tdiv unit)).length
    else 0
  let isOver (value : Int) : Bool := if 0 ≤ step then last < value else value < last
  if isOver start then return 0
  loop (fun (value : Int) => do
    let numbers := ((List.range blockLength).map fun (k : Nat) => value + step * k).takeWhile
      (!isOver ·)
    let next := value + step * numbers.length
    let texts := numbers.map fun (n : Int) =>
      match options.template with
      | some template => template.text shown (n / unit)
      | none => withZeros width (text shown (n / unit))
    let ended := isOver next
    let written := options.separator.intercalate texts ++
      (if ended then "\n" else options.separator)
    match ← writeAll standardOutput written.toUTF8 with
    | .ok () => return if ended then .leave 0 else .again next
    | .error errno =>
      complain "seq" ("write error: " ++ errorText errno)
      return .leave 1)
    patience start

def run (options : Options) (operands : List String) : Action Nat := do
  let fail (message : String) : Action Nat := do
    complain "seq" message
    tryHelp "seq"
    return 1
  match operands, operands.find? fun text => (readDecimal? text).isNone with
  | [], _ => fail "missing operand"
  | _ :: _ :: _ :: extra :: _, _ => fail ("extra operand " ++ quoted extra)
  | _, some text => fail ("invalid floating point argument: " ++ quoted text)
  | _, none =>
    match operands.filterMap readDecimal? with
    | [last] => write options ⟨1, 0⟩ ⟨1, 0⟩ last
    | [first, last] => write options first ⟨1, 0⟩ last
    | [first, step, last] =>
      if step.digits = 0 then
        fail ("invalid Zero increment value: " ++ quoted (operands.getD 1 ""))
      else write options first step last
    | _ => return 1

end Seq

def seq : Program := fun invocation =>
  withOptions { invocation with arguments := Seq.withMark invocation.arguments } Seq.table
    fun parsed => do
      match (parsed.value? 'f').mapM Seq.readTemplate with
      | .error message =>
        complain invocation.name message
        return 1
      | .ok template =>
        if template.isSome && parsed.has 'w' then
          complain invocation.name
            "format string may not be specified when printing equal width strings"
          tryHelp invocation.name
          return 1
        Seq.run
          { separator := (parsed.value? 's').getD "\n", equalWidth := parsed.has 'w', template }
          parsed.operands

/-! ## Prime factors -/

namespace Factor

def factorsWithin : Nat → Nat → Nat → List Nat
  | 0, _, n => [n]
  | bound + 1, candidate, n =>
    if n < 2 then []
    else if n < candidate * candidate then [n]
    else if n % candidate = 0 then candidate :: factorsWithin bound candidate (n / candidate)
    else factorsWithin bound (if candidate = 2 then 3 else candidate + 2) n

def factors (n : Nat) : List Nat := factorsWithin (n + 1) 2 n

def line? (text : String) : Option String :=
  match text.toList with
  | '+' :: digits => number? digits
  | digits => number? digits
where
  number? (digits : List Char) : Option String :=
    if digits.isEmpty || digits.any (!·.isDigit) then none
    else
      let n := Seq.readDigits digits
      some (toString n ++ ":" ++ String.join ((factors n).map fun p => " " ++ toString p) ++ "\n")

def each (name : String) (status : Nat) : List String → Action Nat
  | [] => return status
  | text :: rest => do
    match line? text with
    | some line =>
      let _ ← putText line
      each name status rest
    | none =>
      complain name (quoted text ++ " is not a valid positive integer")
      each name 1 rest

end Factor

def factor : Program := fun invocation =>
  withOptions invocation {} fun parsed => do
    if !parsed.operands.isEmpty then Factor.each invocation.name 0 parsed.operands
    else
      let data := (← readAll standardInput).toOption.getD ByteArray.empty
      let text := (String.fromUTF8? data).getD ""
      let words := text.splitToList fun c => c = ' ' || c = '\t' || c = '\n'
      Factor.each invocation.name 0 (words.filter (!·.isEmpty))

end PipelineShell.Utility
