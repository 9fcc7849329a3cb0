import PipelineShell.Utility.Output

namespace PipelineShell.Utility

open PipelineShell.Action Host

inductive DumpForm
  | characters
  | names
  | numbers (size base : Nat) (signed : Bool)

namespace DumpForm

def characterText (byte : UInt8) : String :=
  match byte.toNat with
  | 0 => "\\0"
  | 7 => "\\a"
  | 8 => "\\b"
  | 9 => "\\t"
  | 10 => "\\n"
  | 11 => "\\v"
  | 12 => "\\f"
  | 13 => "\\r"
  | n =>
    if 32 ≤ n && n < 127 then (Char.ofNat n).toString
    else
      let digits := Nat.toDigits 8 n
      String.ofList (List.replicate (3 - digits.length) '0' ++ digits)

def controlNames : List String := [
  "nul", "soh", "stx", "etx", "eot", "enq", "ack", "bel", "bs", "ht", "nl", "vt", "ff", "cr", "so",
  "si", "dle", "dc1", "dc2", "dc3", "dc4", "nak", "syn", "etb", "can", "em", "sub", "esc", "fs",
  "gs", "rs", "us", "sp"]

def nameText (byte : UInt8) : String :=
  let n := byte.toNat % 128
  if n = 127 then "del" else controlNames.getD n (Char.ofNat n).toString

def digitCount (size base : Nat) : Nat := (Nat.toDigits base (1 <<< (8 * size) - 1)).length

def numberText (size base : Nat) (signed : Bool) (bytes : List UInt8) : String :=
  let value := bytes.foldr (fun byte value => value * 256 + byte.toNat) 0
  let text (n : Nat) : String := String.ofList (Nat.toDigits base n)
  if signed then
    let whole := 1 <<< (8 * size)
    let half := whole / 2
    padLeft (digitCount size 10 + 1) (if value < half then text value
      else "-" ++ text (whole - value))
  else if base = 10 then padLeft (digitCount size 10) (text value)
  else
    let digits := Nat.toDigits base value
    String.ofList (List.replicate (digitCount size base - digits.length) '0' ++ digits)

def groups (size : Nat) : Nat → List UInt8 → List (List UInt8)
  | 0, _ => []
  | _, [] => []
  | bound + 1, bytes =>
    let group := bytes.take size
    (group ++ List.replicate (size - group.length) 0) :: groups size bound (bytes.drop size)

def lineText (form : DumpForm) (bytes : List UInt8) : String :=
  match form with
  | characters => String.join (bytes.map fun byte => padLeft 4 (characterText byte))
  | names => String.join (bytes.map fun byte => padLeft 4 (nameText byte))
  | numbers size base signed =>
    String.join ((groups size bytes.length bytes).map fun group =>
      " " ++ numberText size base signed group)

def ofType? (text : String) : Option DumpForm :=
  match text.toList with
  | ['c'] => some characters
  | ['a'] => some names
  | letter :: size =>
    let size := match size with
      | [] => some 4
      | ['1'] | ['C'] => some 1
      | ['2'] | ['S'] => some 2
      | ['4'] | ['I'] => some 4
      | ['8'] | ['L'] => some 8
      | _ => none
    match letter, size with
    | 'x', some size => some (numbers size 16 false)
    | 'o', some size => some (numbers size 8 false)
    | 'u', some size => some (numbers size 10 false)
    | 'd', some size => some (numbers size 10 true)
    | _, _ => none
  | [] => none

end DumpForm

def offsetText (base : Option Nat) (offset : Nat) : String :=
  match base with
  | none => ""
  | some base =>
    let digits := Nat.toDigits base offset
    let width := if base = 16 then 6 else 7
    String.ofList (List.replicate (width - digits.length) '0' ++ digits)

def dumpLines (forms : List DumpForm) (base : Option Nat) (repeats : Bool) :
    Nat → Nat → Option (List UInt8) → Bool → List UInt8 → List String
  | 0, _, _, _, _ => []
  | bound + 1, offset, before, starred, bytes =>
    if bytes.isEmpty then if base.isSome then [offsetText base offset] else []
    else
      let line := bytes.take 16
      let rest := bytes.drop 16
      let next := offset + line.length
      if !repeats && before = some line && line.length = 16 then
        let more := dumpLines forms base repeats bound next before true rest
        if starred then more else "*" :: more
      else
        let texts := forms.mapIdx fun i form =>
          (if i = 0 then offsetText base offset
            else String.ofList (List.replicate (offsetText base offset).length ' ')) ++
              form.lineText line
        texts ++ dumpLines forms base repeats bound next (some line) false rest

def od : Program := fun invocation =>
  withOptions invocation
    { flags := ['a', 'b', 'c', 'd', 'o', 'x', 'v'], values := ['A', 't', 'N', 'j']
      long := [("address-radix", 'A'), ("format", 't'), ("read-bytes", 'N'), ("skip-bytes", 'j'),
        ("output-duplicates", 'v')] }
    fun parsed => do
      let form? : Char × String → Option DumpForm
        | ('a', _) => some .names
        | ('b', _) => some (.numbers 1 8 false)
        | ('c', _) => some .characters
        | ('d', _) => some (.numbers 2 10 false)
        | ('o', _) => some (.numbers 2 8 false)
        | ('x', _) => some (.numbers 2 16 false)
        | ('t', type) => DumpForm.ofType? type
        | _ => none
      let forms := parsed.options.filterMap form?
      let forms := if forms.isEmpty then [.numbers 2 8 false] else forms
      let base := match parsed.value? 'A' with
        | some "n" => none
        | some "d" => some 10
        | some "x" => some 16
        | _ => some 8
      let (data, status) ← gather invocation.name ByteArray.empty 0
        (if parsed.operands.isEmpty then ["-"] else parsed.operands)
      let skipped := ((parsed.value? 'j').bind sizeOf?).getD 0
      let bytes := data.toList.drop skipped
      let bytes := match (parsed.value? 'N').bind sizeOf? with
        | some most => bytes.take most
        | none => bytes
      let lines := dumpLines forms base (parsed.has 'v') (bytes.length + 2) skipped none false bytes
      outputOr invocation.name (String.join (lines.map (· ++ "\n"))).toUTF8 status
where
  gather (name : String) (data : ByteArray) (status : Nat) :
      List String → Action (ByteArray × Nat)
    | [] => return (data, status)
    | path :: rest => do
      match ← openInput path with
      | .error errno =>
        complainOf name path errno
        gather name data 1 rest
      | .ok descriptor =>
        let more ← readAll descriptor
        closeInput descriptor
        match more with
        | .ok more => gather name (data ++ more) status rest
        | .error errno =>
          complainOf name path errno
          gather name data 1 rest

end PipelineShell.Utility
