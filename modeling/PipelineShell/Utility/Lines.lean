import PipelineShell.Utility.Sorting

namespace PipelineShell.Utility

open PipelineShell.Action Host

/-! ## Repeated lines -/

namespace Uniq

structure Options where
  count : Bool
  repeated : Bool
  unrepeated : Bool
  ignoreCase : Bool
  skippedFields : Nat
  skippedBytes : Nat
  comparedBytes : Option Nat

def comparedPart (options : Options) (line : ByteArray) : List UInt8 :=
  let skipField (text : List UInt8) : List UInt8 :=
    (text.dropWhile Sorting.isBlankByte).dropWhile (!Sorting.isBlankByte ·)
  let text := (List.range options.skippedFields).foldl (fun text _ => skipField text) line.toList
  let text := text.drop options.skippedBytes
  let text := match options.comparedBytes with
    | some most => text.take most
    | none => text
  if options.ignoreCase then text.map Sorting.upperByte else text

def groups (options : Options) (lines : Array ByteArray) : List (Nat × ByteArray) :=
  (lines.foldl (fun (found : List (Nat × ByteArray × List UInt8)) line =>
    let part := comparedPart options line
    match found with
    | (count, first, last) :: rest =>
      if last == part then (count + 1, first, last) :: rest else (1, line, part) :: found
    | [] => [(1, line, part)]) []).map fun (count, line, _) => (count, line)

def shown (options : Options) (lines : Array ByteArray) : ByteArray :=
  (groups options lines).foldr (fun (count, line) output =>
    if (options.repeated && count < 2) || (options.unrepeated && 2 ≤ count) then output
    else
      let label :=
        if options.count then (padLeft 7 (toString count) ++ " ").toUTF8 else ByteArray.empty
      output ++ label ++ terminated line) ByteArray.empty

def table : OptionTable where
  flags := ['c', 'd', 'u', 'i', 'D', 'z']
  values := ['f', 's', 'w']
  long := [("count", 'c'), ("repeated", 'd'), ("unique", 'u'), ("ignore-case", 'i'),
    ("skip-fields", 'f'), ("skip-chars", 's'), ("check-chars", 'w')]

def run (invocation : Invocation) (parsed : Parsed) : Action Nat := do
  let number (letter : Char) : Option Nat := (parsed.value? letter).bind sizeOf?
  let options : Options := {
    count := parsed.has 'c', repeated := parsed.has 'd', unrepeated := parsed.has 'u'
    ignoreCase := parsed.has 'i', skippedFields := (number 'f').getD 0
    skippedBytes := (number 's').getD 0, comparedBytes := number 'w' }
  match parsed.operands with
  | _ :: _ :: extra :: _ =>
    complain invocation.name ("extra operand " ++ quoted extra)
    tryHelp invocation.name
    return 1
  | operands =>
    withInput invocation.name (operands.headD "-") fun descriptor => do
      match ← readAll descriptor with
      | .error errno =>
        complain invocation.name ("error reading " ++ shellQuoted (operands.headD "-") ++ ": " ++
          errorText errno)
        return 1
      | .ok data =>
        let output := shown options (allLines data)
        match operands with
        | [_, path] =>
          match ← perform (.openFile path { write := true, create := true, truncate := true }) with
          | .error errno =>
            complainOf invocation.name path errno
            return 1
          | .ok target =>
            let _ ← writeAll target output
            return 0
        | _ => outputOr invocation.name output 0

end Uniq

def uniq : Program := fun invocation =>
  withOptions invocation Uniq.table (Uniq.run invocation)

def mapLines (invocation : Invocation) (paths : List String) (closes : Bool)
    (change : ByteArray → Option ByteArray) : Action Nat :=
  forInputs paths fun path =>
    withInput invocation.name path fun descriptor =>
      foldLines descriptor
        (fun () lines closed => do
          let _ ← put (closedIf (closed || closes) (joinLines (lines.filterMap change)))
          return .again ())
        (fun () error => do
          match error with
          | none => return 0
          | some errno =>
            complainOf invocation.name path errno
            return 1)
        ()

/-! ## Parts of lines -/

namespace Cut

structure Range where
  first : Nat
  last : Option Nat

inductive Kind
  | bytes
  | fields

def Kind.zero : Kind → String
  | bytes => "byte/character positions are numbered from 1"
  | fields => "fields are numbered from 1"

structure Draft where
  first : Option Nat := none
  hyphen : Bool := false
  last : Option Nat := none

def Draft.addDigit (range : Draft) (digit : Nat) : Draft :=
  if range.hyphen then { range with last := some (range.last.getD 0 * 10 + digit) }
  else { range with first := some (range.first.getD 0 * 10 + digit) }

def Draft.close (kind : Kind) (range : Draft) : Except String Range :=
  match range.hyphen, range.first, range.last with
  | true, none, none => .error "invalid range with no endpoint: -"
  | true, first, some last =>
    if last < first.getD 1 then .error "invalid decreasing range"
    else .ok ⟨first.getD 1, some last⟩
  | true, first, none => .ok ⟨first.getD 1, none⟩
  | false, first, _ =>
    match first.getD 0 with
    | 0 => .error kind.zero
    | position => .ok ⟨position, some position⟩

def readRanges (kind : Kind) (range : Draft) : List Char → Except String (List Range)
  | [] => do return [← range.close kind]
  | c :: rest => do
    if c = ',' || c = ' ' || c = '\t' then
      let closed ← range.close kind
      return closed :: (← readRanges kind {} rest)
    else if c = '-' then
      if range.hyphen then
        throw (match kind with
          | .bytes => "invalid byte or character range"
          | .fields => "invalid field range")
      if range.first = some 0 then throw kind.zero
      readRanges kind { range with hyphen := true } rest
    else if c.isDigit then readRanges kind (range.addDigit (c.toNat - '0'.toNat)) rest
    else
      let what := match kind with
        | .bytes => "invalid byte/character position "
        | .fields => "invalid field value "
      throw (what ++ quoted (String.ofList (c :: rest)))

def merged (ranges : List Range) : List Range :=
  (ranges.mergeSort fun a b => a.first ≤ b.first).foldr (fun range rest =>
    match rest with
    | next :: others =>
      if range.last.all (next.first ≤ ·) then
        ⟨range.first, do return max (← range.last) (← next.last)⟩ :: others
      else range :: rest
    | [] => [range]) []

def gaps (start : Nat) : List Range → List Range
  | [] => [⟨start, none⟩]
  | range :: rest =>
    let before := if start < range.first then [⟨start, some (range.first - 1)⟩] else []
    match range.last with
    | none => before
    | some last => before ++ gaps (last + 1) rest

def Range.of {α : Type} (items : List α) (range : Range) : List α :=
  let rest := items.drop (range.first - 1)
  match range.last with
  | none => rest
  | some last => rest.take (last + 1 - range.first)

def table : OptionTable where
  flags := ['s', 'n', 'z', 'C']
  values := ['b', 'c', 'f', 'd', 'O']
  long := [("bytes", 'b'), ("characters", 'c'), ("fields", 'f'), ("delimiter", 'd'),
    ("only-delimited", 's'), ("complement", 'C'), ("output-delimiter", 'O')]

structure Request where
  list : Option (Kind × String) := none
  delimiter : Option UInt8 := none
  joint : Option (List UInt8) := none
  onlyDelimited : Bool := false
  complement : Bool := false

def Request.addList (request : Request) (kind : Kind) (text : String) : Except String Request :=
  match request.list with
  | some _ => .error "only one list may be specified"
  | none => .ok { request with list := some (kind, text) }

def Request.addOption (request : Request) : Char × String → Except String Request
  | ('b', text) | ('c', text) => request.addList .bytes text
  | ('f', text) => request.addList .fields text
  | ('d', text) =>
    match text.toUTF8.toList with
    | [] => .ok { request with delimiter := some 0 }
    | [delimiter] => .ok { request with delimiter := some delimiter }
    | _ => .error "the delimiter must be a single character"
  | ('O', text) =>
    .ok { request with joint := some (if text.isEmpty then [0] else text.toUTF8.toList) }
  | ('s', _) => .ok { request with onlyDelimited := true }
  | ('C', _) => .ok { request with complement := true }
  | _ => .ok request

def change (parsed : Parsed) : Except String (List UInt8 → Option (List UInt8)) := do
  let request ← parsed.options.foldlM Request.addOption {}
  match request.list with
  | none => throw "you must specify a list of bytes, characters, or fields"
  | some (kind, text) =>
    if let .bytes := kind then
      if request.delimiter.isSome then
        throw "an input delimiter may be specified only when operating on fields"
      if request.onlyDelimited then
        throw ("suppressing non-delimited lines makes sense\n" ++
          "\tonly when operating on fields")
    let ranges := merged (← readRanges kind {} text.toList)
    let ranges := if request.complement then gaps 1 ranges else ranges
    let delimiter := request.delimiter.getD 9
    return fun line =>
      match kind with
      | .bytes =>
        let parts := (ranges.map (·.of line)).filter (!·.isEmpty)
        some ((request.joint.getD []).intercalate parts)
      | .fields =>
        let fields := Sorting.fields (some delimiter) line
        if fields.length = 1 then if request.onlyDelimited then none else some line
        else some ((request.joint.getD [delimiter]).intercalate (ranges.flatMap (·.of fields)))

def run (invocation : Invocation) (parsed : Parsed) : Action Nat := do
  match change parsed with
  | .error message =>
    complain invocation.name message
    tryHelp invocation.name
    return 1
  | .ok change =>
    mapLines invocation parsed.operands true fun line =>
      (change line.toList).map fun bytes => ⟨bytes.toArray⟩

end Cut

def cut : Program := fun invocation =>
  withOptions invocation Cut.table (Cut.run invocation)

def rev : Program := fun invocation =>
  mapLines invocation invocation.arguments false fun line =>
    match String.fromUTF8? line with
    | some text => some (String.ofList text.toList.reverse).toUTF8
    | none => some ⟨line.data.reverse⟩

def foldedWithin (width : Nat) : Nat → List UInt8 → List (List UInt8)
  | 0, _ => []
  | bound + 1, line =>
    if line.length ≤ width then [line]
    else line.take width :: foldedWithin width bound (line.drop width)

def fold : Program := fun invocation =>
  withOptions invocation
    { flags := ['b', 's'], values := ['w'], long := [("width", 'w'), ("bytes", 'b')] }
    fun parsed =>
      let width := max 1 (((parsed.value? 'w').bind sizeOf?).getD 80)
      mapLines invocation parsed.operands false fun line =>
        some ⟨([newline].intercalate (foldedWithin width (line.size + 1) line.toList)).toArray⟩

/-! ## Numbered lines -/

def gatherLines (name : String) (lines : Array ByteArray) (status : Nat) :
    List String → Action (Array ByteArray × Nat)
  | [] => return (lines, status)
  | path :: rest => do
    match ← openInput path with
    | .error errno =>
      complainOf name path errno
      gatherLines name lines 1 rest
    | .ok descriptor =>
      let data ← readAll descriptor
      closeInput descriptor
      match data with
      | .ok data => gatherLines name (lines ++ allLines data) status rest
      | .error errno =>
        complainOf name path errno
        gatherLines name lines 1 rest

def nl : Program := fun invocation =>
  withOptions invocation { values := ['b', 'w', 's', 'v', 'n'] } fun parsed => do
    let width := ((parsed.value? 'w').bind sizeOf?).getD 6
    let separator := (parsed.value? 's').getD "\t"
    let first := ((parsed.value? 'v').bind sizeOf?).getD 1
    let all := parsed.value? 'b' = some "a"
    let paths := if parsed.operands.isEmpty then ["-"] else parsed.operands
    let (lines, status) ← gatherLines invocation.name #[] 0 paths
    let (output, _) := lines.foldl (fun (output, number) line =>
      if all || !line.isEmpty then
        (output ++ (padLeft width (toString number) ++ separator).toUTF8 ++ terminated line,
          number + 1)
      else
        let blanks := String.ofList (List.replicate (width + separator.length) ' ')
        (output ++ blanks.toUTF8 ++ terminated line, number)) (ByteArray.empty, first)
    outputOr invocation.name output status

/-! ## Lines side by side -/

def joinWith (delimiters : List (List UInt8)) (parts : List ByteArray) : ByteArray :=
  (parts.zipIdx).foldl (fun output (part, i) =>
    let before :=
      if i = 0 then [] else delimiters.getD ((i - 1) % max 1 delimiters.length) []
    output ++ ⟨before.toArray⟩ ++ part) ByteArray.empty

def paste : Program := fun invocation =>
  withOptions invocation
    { flags := ['s'], values := ['d'], long := [("serial", 's'), ("delimiters", 'd')] }
    fun parsed => do
      let text := (parsed.value? 'd').getD "\t"
      let dialect : Escape.Dialect :=
        { octal := .direct, escape := false, hexadecimal := false, ends := false, quote := false }
      let (bytes, _) := Escape.expand dialect text
      let delimiters := bytes.map fun byte => [byte]
      let paths := if parsed.operands.isEmpty then ["-"] else parsed.operands
      let (inputs, status) ← gatherEach invocation.name paths
      let output :=
        if parsed.has 's' then inputs.map fun lines => joinWith delimiters lines.toList
        else
          let height := (inputs.map Array.size).foldl max 0
          (List.range height).map fun i =>
            joinWith delimiters (inputs.map fun lines => lines[i]?.getD ByteArray.empty)
      outputOr invocation.name (joinLines output.toArray) status
where
  gatherEach (name : String) : List String → Action (List (Array ByteArray) × Nat)
    | [] => return ([], 0)
    | path :: rest => do
      let (lines, status) ← gatherLines name #[] 0 [path]
      let (others, worst) ← gatherEach name rest
      return (lines :: others, max status worst)

end PipelineShell.Utility
