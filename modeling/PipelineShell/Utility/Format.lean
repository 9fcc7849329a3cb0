import PipelineShell.Utility.Basic
import PipelineShell.Utility.Escape
import PipelineShell.Utility.Floating

namespace PipelineShell.Utility.Format

structure Conversion where
  leftAligned : Bool := false
  zeroPadded : Bool := false
  plus : Bool := false
  blank : Bool := false
  alternate : Bool := false
  width : Option (Option Nat) := none
  precision : Option (Option Nat) := none
  kind : Char

inductive Part
  | literal (bytes : List UInt8)
  | finish
  | conversion (conversion : Conversion)
  | invalid (text : String)

structure Dialect where
  text : Escape.Dialect
  argument : Escape.Dialect
  emptyCharacter : List UInt8
  precision : Nat
  outOfRange : String → String
  notNumeric : String → String
  notCompletelyConverted : String → String

def readSize (text : List Char) : Option (Option Nat) × List Char :=
  match text with
  | '*' :: rest => (some none, rest)
  | _ =>
    let digits := text.takeWhile Char.isDigit
    if digits.isEmpty then (none, text)
    else (some (some (Escape.valueOf 10 digits)), text.drop digits.length)

def isFlag (c : Char) : Bool := c = '-' || c = '0' || c = '+' || c = ' ' || c = '#'

def floatingKinds : List Char := ['e', 'E', 'f', 'F', 'g', 'G']

def kinds : List Char := ['s', 'b', 'c', 'd', 'i', 'o', 'u', 'x', 'X'] ++ floatingKinds

def readConversion (text : List Char) : Part × Nat :=
  let flags := text.takeWhile isFlag
  let (width, rest) := readSize (text.drop flags.length)
  let (precision, rest) :=
    match rest with
    | '.' :: rest =>
      let (size, rest) := readSize rest
      (some (size.getD (some 0)), rest)
    | _ => (none, rest)
  match rest with
  | [] => (.invalid (String.ofList ('%' :: text)), text.length)
  | kind :: rest =>
    let length := text.length - rest.length
    if kind ∈ kinds then
      (.conversion
        { leftAligned := '-' ∈ flags, zeroPadded := '0' ∈ flags, plus := '+' ∈ flags
          blank := ' ' ∈ flags, alternate := '#' ∈ flags, width, precision, kind },
        length)
    else (.invalid (String.ofList ('%' :: text.take length)), length)

def partsFrom (dialect : Dialect) (skip : Nat) : List Char → List Part
  | [] => []
  | c :: rest =>
    match skip with
    | skip + 1 => partsFrom dialect skip rest
    | 0 =>
      match c, rest with
      | '\\', _ =>
        match Escape.read dialect.text rest with
        | .finish => [.finish]
        | .bytes bytes length => .literal bytes :: partsFrom dialect length rest
      | '%', '%' :: _ => .literal [0x25] :: partsFrom dialect 1 rest
      | '%', _ =>
        let (part, length) := readConversion rest
        part :: partsFrom dialect length rest
      | _, _ => .literal (Escape.bytesOf c) :: partsFrom dialect 0 rest

def parts (dialect : Dialect) (format : String) : List Part :=
  partsFrom dialect 0 format.toList

inductive Numeral
  | number (value : Int)
  | incomplete (value : Int)
  | none

def numeral (text : String) : Numeral :=
  match text.toList.dropWhile (· = ' ') with
  | [] => if text.isEmpty then .number 0 else .none
  | '\'' :: c :: _ | '"' :: c :: _ => .number c.toNat
  | c :: rest =>
    let negative := c = '-'
    let body := if c = '-' || c = '+' then rest else c :: rest
    let (base, isDigit, body) := match body with
      | '0' :: 'x' :: body | '0' :: 'X' :: body => (16, Escape.isHex, body)
      | '0' :: body => (8, Escape.isOctal, '0' :: body)
      | body => (10, Char.isDigit, body)
    let digits := body.takeWhile isDigit
    let value : Int := Escape.valueOf base digits
    let value := if negative then -value else value
    if digits.isEmpty then .none
    else if digits.length = body.length then .number value
    else .incomplete value

def pad (conversion : Conversion) (width : Nat) (zeros : Bool) (sign : String)
    (body : List UInt8) : List UInt8 :=
  let sign := sign.toUTF8.toList
  let missing := width - (sign.length + body.length)
  if conversion.leftAligned then sign ++ body ++ List.replicate missing 0x20
  else if zeros then sign ++ List.replicate missing 0x30 ++ body
  else List.replicate missing 0x20 ++ sign ++ body

def formatNumber (conversion : Conversion) (width : Nat) (precision : Option Nat) (value : Int) :
    List UInt8 :=
  let signed := conversion.kind = 'd' || conversion.kind = 'i'
  let magnitude : Nat :=
    if signed then value.natAbs else (value % 0x10000000000000000).toNat
  let base := match conversion.kind with
    | 'o' => 8
    | 'x' | 'X' => 16
    | _ => 10
  let digits := Nat.toDigits base magnitude
  let digits := if conversion.kind = 'X' then digits.map Char.toUpper else digits
  let digits := List.replicate (precision.getD 0 - digits.length) '0' ++ digits
  let sign :=
    if signed && value < 0 then "-"
    else if signed && conversion.plus then "+"
    else if signed && conversion.blank then " "
    else if conversion.alternate && magnitude ≠ 0 then
      match conversion.kind with
      | 'o' => "0"
      | 'x' => "0x"
      | 'X' => "0X"
      | _ => ""
    else ""
  pad conversion width (conversion.zeroPadded && precision.isNone) sign
    (String.ofList digits).toUTF8.toList

def formatFloating (conversion : Conversion) (width : Nat) (precision : Option Nat)
    (value : Floating.Value) : List UInt8 :=
  let sign :=
    if value.isNegative then "-" else if conversion.plus then "+"
    else if conversion.blank then " " else ""
  let body := Floating.text conversion.kind precision conversion.alternate value
  pad conversion width (conversion.zeroPadded && value.isFinite) sign body.toUTF8.toList

structure State where
  output : List (List UInt8) := []
  arguments : List String
  complaints : List String := []
  finished : Bool := false
  invalid : Option String := none

namespace State

def write (state : State) (bytes : List UInt8) : State :=
  { state with output := bytes :: state.output }

def complain (state : State) (message : String) : State :=
  { state with complaints := message :: state.complaints }

def take (state : State) : Option String × State :=
  match state.arguments with
  | [] => (none, state)
  | argument :: rest => (some argument, { state with arguments := rest })

def readNumber (state : State) (dialect : Dialect) (text : String) (signed : Bool := true) :
    Int × State :=
  let (least, most) : Int × Int :=
    if signed then (-0x8000000000000000, 0x7fffffffffffffff)
    else (-0xffffffffffffffff, 0xffffffffffffffff)
  let (value, state) := match numeral text with
    | .number value => (value, state)
    | .incomplete value => (value, state.complain (dialect.notCompletelyConverted text))
    | .none => (0, state.complain (dialect.notNumeric text))
  if value < least then (least, state.complain (dialect.outOfRange text))
  else if most < value then (most, state.complain (dialect.outOfRange text))
  else (value, state)

def readFloating (state : State) (dialect : Dialect) (text : String) : Floating.Value × State :=
  let zero : Floating.Value := .finite false ⟨0, 1⟩
  match text.toList with
  | [] => (zero, state)
  | '\'' :: c :: _ | '"' :: c :: _ => (.finite false ⟨c.toNat, 1⟩, state)
  | characters =>
    match Floating.read? dialect.precision characters with
    | some (value, []) => (value, state)
    | some (value, _) => (value, state.complain (dialect.notCompletelyConverted text))
    | none => (zero, state.complain (dialect.notNumeric text))

def size (state : State) (dialect : Dialect) : Option (Option Nat) → Option Nat × State
  | none => (none, state)
  | some (some size) => (some size, state)
  | some none =>
    let (argument, state) := state.take
    let (value, state) := state.readNumber dialect (argument.getD "")
    (some value.toNat, state)

def convert (state : State) (dialect : Dialect) (conversion : Conversion) : State :=
  let (width, state) := state.size dialect conversion.width
  let (precision, state) := state.size dialect conversion.precision
  let (argument, state) := state.take
  let text := argument.getD ""
  let width := width.getD 0
  let cut (bytes : List UInt8) : List UInt8 :=
    match precision with
    | some most => bytes.take most
    | none => bytes
  match conversion.kind with
  | 's' => state.write (pad conversion width false "" (cut text.toUTF8.toList))
  | 'c' =>
    let bytes := if text.isEmpty then dialect.emptyCharacter else text.toUTF8.toList.take 1
    state.write (pad conversion width false "" bytes)
  | 'b' =>
    let (bytes, ended) := Escape.expand dialect.argument text
    let state := state.write (pad conversion width false "" (cut bytes))
    { state with finished := ended }
  | kind =>
    if kind ∈ floatingKinds then
      let (value, state) := state.readFloating dialect text
      state.write (formatFloating conversion width precision value)
    else
      let (value, state) := state.readNumber dialect text (kind = 'd' || kind = 'i')
      state.write (formatNumber conversion width precision value)

def run (state : State) (dialect : Dialect) : List Part → State
  | [] => state
  | part :: rest =>
    if state.finished then state
    else
      match part with
      | .literal bytes => run (state.write bytes) dialect rest
      | .finish => { state with finished := true }
      | .conversion conversion => run (state.convert dialect conversion) dialect rest
      | .invalid text => { state with invalid := some text, finished := true }

end State

def hasConversion (parts : List Part) : Bool :=
  parts.any fun part => match part with
    | .conversion _ => true
    | _ => false

def repeatFormat (dialect : Dialect) (parts : List Part) : Nat → State → State
  | 0, state => state
  | times + 1, state =>
    let state := state.run dialect parts
    if state.finished || state.arguments.isEmpty || !hasConversion parts then state
    else repeatFormat dialect parts times state

structure Result where
  output : ByteArray
  complaints : List String
  invalid : Option String

def print (dialect : Dialect) (format : String) (arguments : List String) : Result :=
  let state := repeatFormat dialect (parts dialect format) (arguments.length + 1) { arguments }
  ⟨⟨(state.output.reverse.flatten).toArray⟩, state.complaints.reverse, state.invalid⟩

end PipelineShell.Utility.Format
