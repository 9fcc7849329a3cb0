import PipelineShell.Utility.Output

namespace PipelineShell.Utility

open PipelineShell.Action Host

namespace ByteSets

def byteRange (low high : Nat) : List UInt8 :=
  (List.range' low (high + 1 - low)).map UInt8.ofNat

def classBytes? : String → Option (List UInt8)
  | "lower" => some (byteRange 0x61 0x7a)
  | "upper" => some (byteRange 0x41 0x5a)
  | "digit" => some (byteRange 0x30 0x39)
  | "alpha" => some (byteRange 0x41 0x5a ++ byteRange 0x61 0x7a)
  | "alnum" => some (byteRange 0x30 0x39 ++ byteRange 0x41 0x5a ++ byteRange 0x61 0x7a)
  | "xdigit" => some (byteRange 0x30 0x39 ++ byteRange 0x41 0x46 ++ byteRange 0x61 0x66)
  | "blank" => some [0x09, 0x20]
  | "space" => some (byteRange 0x09 0x0d ++ [0x20])
  | "punct" =>
    some (byteRange 0x21 0x2f ++ byteRange 0x3a 0x40 ++ byteRange 0x5b 0x60 ++ byteRange 0x7b 0x7e)
  | "cntrl" => some (byteRange 0x00 0x1f ++ [0x7f])
  | "graph" => some (byteRange 0x21 0x7e)
  | "print" => some (byteRange 0x20 0x7e)
  | _ => none

/-- A byte of a set as it was written, and whether a backslash keeps it from standing for anything
but itself. -/
structure Element where
  byte : UInt8
  escaped : Bool

def controlByte (letter : UInt8) : UInt8 :=
  match (Escape.letters.map fun (c, byte) => (UInt8.ofNat c.toNat, byte)).lookup letter with
  | some byte => byte
  | none => letter

def octalValue (digits : List UInt8) : Nat :=
  digits.foldl (fun value digit => value * 8 + (digit.toNat - 0x30)) 0

/-- The bytes of up to three digits of which the first is one: the third is left over where the
number would not fit in a byte. -/
def octalDigits (text : List UInt8) : List UInt8 :=
  let digits := (text.take 3).takeWhile fun byte => 0x30 ≤ byte && byte ≤ 0x37
  if octalValue digits < 256 then digits else digits.take 2

def elements (skip : Nat) : List UInt8 → List Element
  | [] => []
  | byte :: rest =>
    match skip with
    | skip + 1 => elements skip rest
    | 0 =>
      match byte, rest with
      | 0x5c, next :: _ =>
        let digits := octalDigits rest
        if digits.isEmpty then ⟨controlByte next, true⟩ :: elements 1 rest
        else ⟨UInt8.ofNat (octalValue digits), true⟩ :: elements digits.length rest
      | _, _ => ⟨byte, false⟩ :: elements 0 rest

inductive Member
  | byte (byte : UInt8)
  | range (low high : UInt8)
  | named (name : String) (bytes : List UInt8)
  | equal (byte : UInt8)
  | repeated (byte : UInt8) (count : Option Nat)

def Element.isPlain (element : Element) (byte : UInt8) : Bool :=
  element.byte == byte && !element.escaped

def printable (byte : UInt8) : String :=
  if 0x20 ≤ byte && byte < 0x7f then (Char.ofNat byte.toNat).toString
  else
    "\\" ++ String.ofList ([byte.toNat / 64 % 8, byte.toNat / 8 % 8, byte.toNat % 8].map
      Nat.digitChar)

def shown (text : List Element) : String :=
  String.join (text.map fun element =>
    if element.byte = 0x5c then "\\\\" else printable element.byte)

def beforeClosing? (mark : UInt8) : List Element → Option (List Element)
  | first :: second :: rest =>
    if first.isPlain mark && second.isPlain 0x5d then some []
    else (beforeClosing? mark (second :: rest)).map (first :: ·)
  | _ => none

def isRepetition : List Element → Bool
  | star :: rest =>
    star.isPlain 0x2a && match rest.dropWhile fun e => 0x30 ≤ e.byte && e.byte ≤ 0x39 with
      | bracket :: _ => bracket.isPlain 0x5d
      | [] => false
  | [] => false

def readRepeated? : List Element → Option (Except String (Member × Nat))
  | byte :: star :: rest =>
    let digits := rest.takeWhile fun e => !e.escaped && e.byte != 0x5d
    let closes := match rest.drop digits.length with
      | bracket :: _ => bracket.isPlain 0x5d
      | [] => false
    if !star.isPlain 0x2a || !closes then none
    else
      let base : Nat := if digits.head?.any (·.byte == 0x30) then 8 else 10
      let values := digits.map fun e => e.byte.toNat - 0x30
      let value := values.foldl (fun value digit => value * base + digit) 0
      let isNumber :=
        (digits.zip values).all (fun (e, value) => 0x30 ≤ e.byte && value < base) &&
          value < 18446744073709551616
      if !isNumber then
        some (.error ("invalid repeat count " ++ quoted (shown digits) ++
          " in [c*n] construct"))
      else
        some (.ok (.repeated byte.byte (if value = 0 then none else some value),
          digits.length + 3))
  | _ => none

/-- Reads what an unescaped opening bracket begins: the member and how many bytes it takes after
the bracket. Without a member the bracket stands for itself. -/
def readBracket? (text : List Element) : Option (Except String (Member × Nat)) :=
  match text with
  | mark :: rest =>
    match beforeClosing? mark.byte rest with
    | some inner =>
      let name := String.ofList (inner.map fun e => Char.ofNat e.byte.toNat)
      if mark.isPlain 0x3a then
        if inner.isEmpty then some (.error "missing character class name '[::]'")
        else
          match classBytes? name with
          | some bytes => some (.ok (.named name bytes, inner.length + 3))
          | none =>
            if isRepetition rest then readRepeated? text
            else some (.error ("invalid character class " ++ quoted (shown inner)))
      else if mark.isPlain 0x3d then
        match inner with
        | [] => some (.error "missing equivalence class character '[==]'")
        | [e] => some (.ok (.equal e.byte, 4))
        | _ =>
          if isRepetition rest then readRepeated? text
          else
            some (.error
              (shown inner ++ ": equivalence class operand must be a single character"))
      else readRepeated? text
    | none => readRepeated? text
  | [] => none

def readMember (element : Element) (rest : List Element) : Except String (Member × Nat) :=
  match if element.isPlain 0x5b then readBracket? rest else none with
  | some result => result
  | none =>
    match rest with
    | hyphen :: high :: _ =>
      if !hyphen.isPlain 0x2d then .ok (.byte element.byte, 0)
      else if high.byte < element.byte then
        .error ("range-endpoints of '" ++ printable element.byte ++ "-" ++ printable high.byte ++
          "' are in reverse collating sequence order")
      else .ok (.range element.byte high.byte, 2)
    | _ => .ok (.byte element.byte, 0)

def readMembers (skip : Nat) : List Element → Except String (List Member)
  | [] => .ok []
  | element :: rest =>
    match skip with
    | skip + 1 => readMembers skip rest
    | 0 => do
      let (member, length) ← readMember element rest
      return member :: (← readMembers length rest)

def readSet (text : String) : Except String (List Member) :=
  readMembers 0 (elements 0 text.toUTF8.toList)

def Member.bytes (filler : Nat) : Member → List UInt8
  | byte b | equal b => [b]
  | range low high => byteRange low.toNat high.toNat
  | named _ bytes => bytes
  | repeated b (some count) => List.replicate (min count 65536) b
  | repeated b none => List.replicate filler b

def Member.fills : Member → Bool
  | repeated _ none => true
  | _ => false

def bytesOf (length : Nat) (members : List Member) : List UInt8 :=
  let fixed := (members.flatMap (Member.bytes 0)).length
  members.flatMap (Member.bytes (length - fixed))

def complementOf (set : List UInt8) : List UInt8 :=
  (byteRange 0 255).filter fun byte => !set.contains byte

def replacements (source target : List UInt8) : Array UInt8 :=
  let identity := (byteRange 0 255).toArray
  let last := target.getLast?.getD 0
  (source.zipIdx).foldl (fun table (byte, i) =>
    table.set! byte.toNat (target.getD i last)) identity

def membership (set : List UInt8) : Array Bool :=
  set.foldl (fun table byte => table.set! byte.toNat true) (Array.replicate 256 false)

structure Plan where
  removed : Array Bool
  replaced : Array UInt8
  squeezed : Array Bool

def Plan.apply (plan : Plan) (data : ByteArray) (last : Option UInt8) :
    ByteArray × Option UInt8 :=
  data.foldl (fun (output, last) byte =>
    if plan.removed.getD byte.toNat false then (output, last)
    else
      let byte := plan.replaced.getD byte.toNat byte
      if plan.squeezed.getD byte.toNat false && last = some byte then (output, last)
      else (output.push byte, some byte)) (ByteArray.empty, last)

def plan (delete squeeze : Bool) (source : List UInt8) (target : Option (List UInt8)) : Plan :=
  let identity := (byteRange 0 255).toArray
  let none := membership []
  if delete then
    ⟨membership source, identity, if squeeze then membership (target.getD []) else none⟩
  else
    match target with
    | some target =>
      ⟨none, replacements source target, if squeeze then membership target else none⟩
    | Option.none => ⟨none, identity, if squeeze then membership source else none⟩

def casePositions (position : Nat) : List Member → List Nat
  | [] => []
  | member :: rest =>
    let more := casePositions (position + (member.bytes 0).length) rest
    match member with
    | .named name _ => if name = "lower" || name = "upper" then position :: more else more
    | _ => more

def replacementMistake? (complement truncates : Bool) (source target : List Member)
    (sourceBytes targetBytes : List UInt8) : Option String :=
  let isOtherClass (member : Member) : Bool := match member with
    | .named name _ => name ≠ "lower" && name ≠ "upper"
    | _ => false
  let isClass (member : Member) : Bool := match member with
    | .named .. => true
    | _ => false
  let isEqual (member : Member) : Bool := match member with
    | .equal _ => true
    | _ => false
  let isUniform := targetBytes.eraseDups.length ≤ 1
  if target.any isEqual then
    some "[=c=] expressions may not appear in string2 when translating"
  else if target.any isOtherClass then
    some ("when translating, the only character classes that may appear in\n" ++
      "string2 are 'upper' and 'lower'")
  else if !complement && (casePositions 0 target).any fun position =>
      position ≤ sourceBytes.length && !(casePositions 0 source).contains position then
    some "misaligned [:upper:] and/or [:lower:] construct"
  else if targetBytes.length < sourceBytes.length && !truncates && targetBytes.isEmpty then
    some "when not truncating set1, string2 must be non-empty"
  else if targetBytes.length < sourceBytes.length && !truncates && target.getLast?.any isClass then
    some ("when translating with string1 longer than string2,\n" ++
      "the latter string must not end with a character class")
  else if complement && source.any isClass &&
      !(isUniform && (!truncates || targetBytes.length = sourceBytes.length)) then
    some ("when translating with complemented character classes,\n" ++
      "string2 must map all characters in the domain to one")
  else none

def readPlan (parsed : Parsed) (first : String) (second : Option String) : Except String Plan := do
  let delete := parsed.has 'd'
  let squeeze := parsed.has 's'
  let complement := parsed.has 'c' || parsed.has 'C'
  let source ← readSet first
  let target ← second.mapM readSet
  let listed := bytesOf 0 source
  let sourceBytes := if complement then complementOf listed else listed
  if source.any Member.fills then
    throw "the [c*] repeat construct may not appear in string1"
  match target with
  | Option.none => return plan delete squeeze sourceBytes Option.none
  | some target =>
    let targetBytes := bytesOf sourceBytes.length target
    if 1 < (target.filter Member.fills).length then
      throw "only one [c*] repeat construct may appear in string2"
    if delete then
      if target.any Member.fills then
        throw "the [c*] construct may appear in string2 only when translating"
      return plan delete squeeze sourceBytes (some targetBytes)
    if let some mistake :=
        replacementMistake? complement (parsed.has 't') source target sourceBytes targetBytes then
      throw mistake
    let sourceBytes :=
      if parsed.has 't' then sourceBytes.take targetBytes.length else sourceBytes
    return plan delete squeeze sourceBytes (some targetBytes)

def endsInBackslash (text : String) : Bool :=
  (text.toList.reverse.takeWhile (· = '\\')).length % 2 = 1

def run (invocation : Invocation) (parsed : Parsed) : Action Nat := do
  let delete := parsed.has 'd'
  let squeeze := parsed.has 's'
  let failWith (messages : List String) : Action Nat := do
    match messages with
    | first :: rest =>
      complain invocation.name first
      for line in rest do
        let _ ← writeAll standardError (line ++ "\n").toUTF8
    | [] => pure ()
    tryHelp invocation.name
    return 1
  match parsed.operands with
  | [] => failWith ["missing operand"]
  | first :: rest =>
    if rest.isEmpty && !delete && !squeeze then
      failWith ["missing operand after " ++ quoted first,
        "Two strings must be given when translating."]
    else if rest.isEmpty && delete && squeeze then
      failWith ["missing operand after " ++ quoted first,
        "Two strings must be given when both deleting and squeezing repeats."]
    else if let (true, false, [extra]) := (delete, squeeze, rest) then
      failWith ["extra operand " ++ quoted extra,
        "Only one string may be given when deleting without squeezing repeats."]
    else if let (true, false, extra :: _) := (delete, squeeze, rest) then
      failWith ["extra operand " ++ quoted extra]
    else if let _ :: extra :: _ := rest then failWith ["extra operand " ++ quoted extra]
    else
      if (first :: rest).any endsInBackslash then
        complain invocation.name
          "warning: an unescaped backslash at end of string is not portable"
      match readPlan parsed first rest.head? with
      | .error message =>
        complain invocation.name message
        return 1
      | .ok plan =>
        foldChunks standardInput chunkSize
          (fun last data => do
            let (output, last) := plan.apply data last
            match ← writeAll standardOutput output with
            | .ok () => return .again last
            | .error errno =>
              complain invocation.name ("write error: " ++ errorText errno)
              return .leave 1)
          (fun _ error => do
            match error with
            | Option.none => return 0
            | some errno =>
              complain invocation.name ("read error: " ++ errorText errno)
              return 1)
          Option.none

end ByteSets

def tr : Program := fun invocation =>
  withOptions invocation
    { flags := ['c', 'C', 'd', 's', 't'], permutes := false
      long := [("complement", 'c'), ("delete", 'd'), ("squeeze-repeats", 's'),
        ("truncate-set1", 't')] }
    (ByteSets.run invocation)

end PipelineShell.Utility
