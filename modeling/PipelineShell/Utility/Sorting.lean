import PipelineShell.Utility.Output

/-!
# Sorting lines

Lines are ordered byte by byte, or by keys: parts of a line that are compared as text or as
numbers. Lines with equal keys are ordered as whole lines, unless the order is to be stable.
-/

namespace PipelineShell.Utility

open PipelineShell.Action Host

namespace Sorting

def compareFrom (a b : ByteArray) (index : Nat) : Ordering :=
  if h : index < a.size ∧ index < b.size then
    if a[index] == b[index] then compareFrom a b (index + 1)
    else compare a[index] b[index]
  else compare a.size b.size
termination_by a.size - index

def compareBytes (a b : ByteArray) : Ordering := compareFrom a b 0

structure Order where
  numeric : Bool := false
  reverse : Bool := false
  ignoreCase : Bool := false
  ignoreBlanks : Bool := false
  dictionary : Bool := false
deriving DecidableEq

namespace Order

def addLetter (order : Order) : Char → Option Order
  | 'n' | 'g' | 'h' => some { order with numeric := true }
  | 'r' => some { order with reverse := true }
  | 'f' => some { order with ignoreCase := true }
  | 'b' => some { order with ignoreBlanks := true }
  | 'd' => some { order with dictionary := true }
  | _ => none

def isPlain (order : Order) : Bool := order = {}

end Order

def isBlankByte (byte : UInt8) : Bool := byte == 0x20 || byte == 0x09

def isDigitByte (byte : UInt8) : Bool := 0x30 ≤ byte && byte ≤ 0x39

structure Decimal where
  negative : Bool
  whole : Nat
  places : List UInt8

def decimal (text : List UInt8) : Decimal :=
  let text := text.dropWhile isBlankByte
  let negative := text.head? = some 0x2d
  let text := if negative then text.drop 1 else text
  let whole := text.takeWhile isDigitByte
  let places := match text.drop whole.length with
    | 0x2e :: rest => rest.takeWhile isDigitByte
    | _ => []
  let value := whole.foldl (fun value byte => value * 10 + (byte.toNat - 0x30)) 0
  let places := (places.reverse.dropWhile (· == 0x30)).reverse
  ⟨negative && (value ≠ 0 || !places.isEmpty), value, places⟩

def compareDecimals (a b : Decimal) : Ordering :=
  let magnitude := (compare a.whole b.whole).then (compare a.places b.places)
  match a.negative, b.negative with
  | false, false => magnitude
  | true, true => magnitude.swap
  | true, false => .lt
  | false, true => .gt

def upperByte (byte : UInt8) : UInt8 := if 0x61 ≤ byte && byte ≤ 0x7a then byte - 32 else byte

def isWordByte (byte : UInt8) : Bool :=
  let upper := upperByte byte
  isDigitByte byte || (0x41 ≤ upper && upper ≤ 0x5a) || isBlankByte byte

def compareKeys (order : Order) (a b : List UInt8) : Ordering :=
  let result :=
    if order.numeric then compareDecimals (decimal a) (decimal b)
    else
      let prepare (text : List UInt8) : List UInt8 :=
        let text := if order.ignoreBlanks then text.dropWhile isBlankByte else text
        let text := if order.dictionary then text.filter isWordByte else text
        if order.ignoreCase then text.map upperByte else text
      compare (prepare a) (prepare b)
  if order.reverse then result.swap else result

/-- A place in a line: a field, counted from one, and a character of it; the character zero is the
last one of the field. -/
structure Position where
  field : Nat
  character : Nat

structure Key where
  first : Position
  last : Option Position
  order : Order

def fieldsWithin (separator : Option UInt8) : Nat → List UInt8 → List (List UInt8)
  | 0, _ => []
  | bound + 1, line =>
    match separator with
    | some separator =>
      match line.span (· != separator) with
      | (field, _ :: rest) => field :: fieldsWithin (some separator) bound rest
      | (field, []) => [field]
    | none =>
      let blanks := line.takeWhile isBlankByte
      let field := blanks ++ (line.drop blanks.length).takeWhile (!isBlankByte ·)
      if field.isEmpty then [] else field :: fieldsWithin none bound (line.drop field.length)

def fields (separator : Option UInt8) (line : List UInt8) : List (List UInt8) :=
  fieldsWithin separator (line.length + 1) line

def Key.select (key : Key) (separator : Option UInt8) (line : List UInt8) : List UInt8 :=
  let all := fields separator line
  let gap := if separator.isSome then 1 else 0
  let startOf (field : Nat) : Nat :=
    (all.take field).foldl (fun total text => total + (text.length + gap)) 0
  let start := startOf (key.first.field - 1)
  let leading :=
    if key.order.ignoreBlanks then ((line.drop start).takeWhile isBlankByte).length else 0
  let start := min line.length (start + leading + (key.first.character - 1))
  let stop := match key.last with
    | none => line.length
    | some position =>
      let base := startOf (position.field - 1)
      if position.character = 0 then base + (all.getD (position.field - 1) []).length
      else base + position.character
  (line.take stop).drop start

def position? (text : List Char) (character : Nat) : Option (Position × List Char) :=
  let digits := text.takeWhile Char.isDigit
  let number (digits : List Char) : Nat :=
    digits.foldl (fun value c => value * 10 + (c.toNat - '0'.toNat)) 0
  if digits.isEmpty then none
  else
    match text.drop digits.length with
    | '.' :: rest =>
      let places := rest.takeWhile Char.isDigit
      some (⟨number digits, number places⟩, rest.drop places.length)
    | rest => some (⟨number digits, character⟩, rest)

def key? (text : String) : Option Key := do
  let (first, rest) ← position? text.toList 1
  let letters := rest.takeWhile (· ≠ ',')
  let order ← letters.foldlM Order.addLetter {}
  match rest.drop letters.length with
  | _ :: rest =>
    let (last, letters) ← position? rest 0
    let order ← letters.foldlM Order.addLetter order
    return ⟨first, some last, order⟩
  | [] => return ⟨first, none, order⟩

structure Plan where
  keys : List Key
  order : Order
  separator : Option UInt8
  stable : Bool

def Plan.compareByKeys (plan : Plan) (a b : ByteArray) : Ordering :=
  if plan.keys.isEmpty then
    if ({ plan.order with reverse := false } : Order).isPlain then
      let result := compareBytes a b
      if plan.order.reverse then result.swap else result
    else compareKeys plan.order a.toList b.toList
  else
    plan.keys.foldl (fun result key =>
      result.then
        (let order := if key.order.isPlain then plan.order else key.order
        let key := { key with order }
        compareKeys order (key.select plan.separator a.toList)
          (key.select plan.separator b.toList)))
      .eq

def Plan.compare (plan : Plan) (a b : ByteArray) : Ordering :=
  (plan.compareByKeys a b).then
    (if plan.stable then .eq
    else
      let result := compareBytes a b
      if plan.order.reverse then result.swap else result)

def Plan.unique (plan : Plan) : List ByteArray → List ByteArray
  | a :: b :: rest =>
    if plan.compareByKeys a b = .eq then plan.unique (a :: rest) else a :: plan.unique (b :: rest)
  | lines => lines
termination_by lines => lines.length

def table : OptionTable where
  flags := ['b', 'c', 'd', 'f', 'g', 'h', 'm', 'n', 'r', 's', 'u', 'z', 'C']
  values := ['k', 'o', 't', 'S', 'T']
  long := [("reverse", 'r'), ("numeric-sort", 'n'), ("unique", 'u'), ("key", 'k'),
    ("field-separator", 't'), ("output", 'o'), ("ignore-case", 'f'),
    ("ignore-leading-blanks", 'b'), ("stable", 's'), ("check", 'c'), ("merge", 'm')]

def gather (name : String) (lines : Array ByteArray) :
    List String → Action (Option (Array ByteArray))
  | [] => return some lines
  | path :: rest => do
    match ← openInput path with
    | .error errno =>
      complain name ("cannot read: " ++ shellName path ++ ": " ++ errorText errno)
      return none
    | .ok descriptor =>
      let data ← readAll descriptor
      closeInput descriptor
      match data with
      | .ok data => gather name (lines ++ allLines data) rest
      | .error errno =>
        complain name ("read failed: " ++ shellName path ++ ": " ++ errorText errno)
        return none

def disorder? (plan : Plan) (isUnique : Bool) (number : Nat) :
    List ByteArray → Option (Nat × ByteArray)
  | a :: b :: rest =>
    let order := if isUnique then plan.compareByKeys a b else plan.compare a b
    if order = .gt || (isUnique && order = .eq) then some (number + 1, b)
    else disorder? plan isUnique (number + 1) (b :: rest)
  | _ => none

def writeLines (name : String) (path : Option String) (lines : List ByteArray) : Action Nat := do
  let data := joinLines lines.toArray
  match path with
  | none => outputOr name data 0
  | some path =>
    match ← perform (.openFile path { write := true, create := true, truncate := true }) with
    | .error errno =>
      complain name ("open failed: " ++ shellName path ++ ": " ++ errorText errno)
      return 2
    | .ok descriptor =>
      let _ ← writeAll descriptor data
      closeAll [descriptor]
      return 0

def run (invocation : Invocation) (parsed : Parsed) : Action Nat := do
  let order := parsed.options.foldl (fun (order : Order) (letter, _) =>
    (order.addLetter letter).getD order) {}
  let keyTexts := (parsed.options.filter (·.1 = 'k')).map (·.2)
  match keyTexts.find? fun text => (key? text).isNone with
  | some text =>
    complain invocation.name ("invalid number at field start: invalid count at start of " ++
      quoted text)
    return 2
  | none =>
    let plan : Plan := {
      keys := keyTexts.filterMap key?, order
      separator := (parsed.value? 't').bind fun text => text.toUTF8.toList.head?
      stable := parsed.has 's' || parsed.has 'u' }
    let paths := if parsed.operands.isEmpty then ["-"] else parsed.operands
    match ← gather invocation.name #[] paths with
    | none => return 2
    | some lines =>
      let isUnique := parsed.has 'u'
      if parsed.has 'c' || parsed.has 'C' then
        match disorder? plan isUnique 1 lines.toList with
        | none => return 0
        | some (number, line) =>
          if parsed.has 'c' then
            let _ ← writeAll standardError
              ((invocation.name ++ ": " ++ paths.headD "-" ++ ":" ++ toString number ++
                ": disorder: ").toUTF8 ++ terminated line)
          return 1
      let sorted := lines.toList.mergeSort fun a b => plan.compare a b != .gt
      writeLines invocation.name (parsed.value? 'o')
        (if isUnique then plan.unique sorted else sorted)

end Sorting

def sort : Program := fun invocation =>
  withOptions invocation Sorting.table (Sorting.run invocation) 2

end PipelineShell.Utility
