import PipelineShell.Utility.Escape

/-!
# Patterns

Regular expressions over bytes. What is left of a pattern after a byte is again a pattern, so a
text is matched by going through it once. Anchors hold at the beginning and at the end of the text
only. The texts of groups are found by splitting a text that matches, each part as long as can be.
-/

namespace PipelineShell.Utility

inductive Pattern
  | nothing
  | empty
  | start
  | stop
  | bytes (ranges : List (UInt8 × UInt8)) (negated : Bool)
  | both (first second : Pattern)
  | either (first second : Pattern)
  | many (inner : Pattern)
  | group (number : Nat) (inner : Pattern)
deriving DecidableEq

namespace Pattern

def any : Pattern := bytes [] true

def byte (b : UInt8) : Pattern := bytes [(b, b)] false

def inRanges (ranges : List (UInt8 × UInt8)) (negated : Bool) (b : UInt8) : Bool :=
  (ranges.any fun (low, high) => low ≤ b && b ≤ high) != negated

def matchesNothing (atStart atStop : Bool) : Pattern → Bool
  | nothing | bytes .. => false
  | empty | many _ => true
  | start => atStart
  | stop => atStop
  | both a b => a.matchesNothing atStart atStop && b.matchesNothing atStart atStop
  | either a b => a.matchesNothing atStart atStop || b.matchesNothing atStart atStop
  | group _ inner => inner.matchesNothing atStart atStop

def after (a b : Pattern) : Pattern :=
  match a, b with
  | nothing, _ | _, nothing => nothing
  | empty, b => b
  | a, b => both a b

def isAlternative (p : Pattern) : Pattern → Bool
  | either a b => decide (p = a) || p.isAlternative b
  | q => decide (p = q)

def orElse (a b : Pattern) : Pattern :=
  match a with
  | nothing => b
  | either first rest =>
    let b := rest.orElse b
    if first.isAlternative b then b else either first b
  | a =>
    match b with
    | nothing => a
    | b => if a.isAlternative b then b else either a b

def next (atStart : Bool) (b : UInt8) : Pattern → Pattern
  | nothing | empty | start | stop => nothing
  | bytes ranges negated => if inRanges ranges negated b then empty else nothing
  | both p q =>
    let inFirst := (p.next atStart b).after q
    if p.matchesNothing atStart false then inFirst.orElse (q.next atStart b) else inFirst
  | either p q => (p.next atStart b).orElse (q.next atStart b)
  | many p => (p.next atStart b).after (many p)
  | group _ p => p.next atStart b

def matchesBeginning (atStart : Bool) (pattern : Pattern) : List UInt8 → Bool
  | [] => pattern.matchesNothing atStart true
  | b :: rest =>
    pattern.matchesNothing atStart false || (pattern.next atStart b).matchesBeginning false rest

def occursIn (pattern : Pattern) (text : List UInt8) : Bool :=
  ((many any).after pattern).matchesBeginning true text

def longest? (atStart : Bool) (length : Nat) (best : Option Nat) (pattern : Pattern) :
    List UInt8 → Option Nat
  | [] => if pattern.matchesNothing atStart true then some length else best
  | b :: rest =>
    let best := if pattern.matchesNothing atStart false then some length else best
    match pattern.next atStart b with
    | nothing => best
    | pattern => pattern.longest? false (length + 1) best rest

/-! ## Groups -/

def fits (atStart atStop : Bool) (pattern : Pattern) : List UInt8 → Bool
  | [] => pattern.matchesNothing atStart atStop
  | b :: rest => (pattern.next atStart b).fits false atStop rest

/-- The length of the longest part at the beginning of a text that one pattern matches while
another matches the rest. It is not shorter than `least`. -/
def splitLength? (a b : Pattern) (atStart atStop : Bool) (least : Nat) (text : List UInt8) :
    Option Nat :=
  let lengths := (List.range' least (text.length + 1 - least)).reverse
  lengths.find? fun length =>
    a.fits atStart (atStop && length = text.length) (text.take length) &&
      b.fits (atStart && length = 0) atStop (text.drop length)

/-- The last of the parts of a text that a pattern matches one after another, and whether it is all
of the text. There are at most `bound` parts. -/
def lastRound? (inner : Pattern) (atStop : Bool) :
    Nat → Bool → List UInt8 → Option (Bool × List UInt8)
  | 0, _, _ => none
  | bound + 1, atStart, text => do
    let length ← splitLength? inner (many inner) atStart atStop 1 text
    if length = text.length then some (atStart, text)
    else lastRound? inner atStop bound false (text.drop length)

/-- The texts of the groups in a text that the pattern matches. Where a group has several, the last
one counts. -/
def captures (atStart atStop : Bool) (text : List UInt8) : Pattern → List (Nat × List UInt8)
  | group number inner => (number, text) :: captures atStart atStop text inner
  | both a b =>
    match splitLength? a b atStart atStop 0 text with
    | some length =>
      captures atStart (atStop && length = text.length) (text.take length) a ++
        captures (atStart && length = 0) atStop (text.drop length) b
    | none => []
  | either a b =>
    if a.fits atStart atStop text then captures atStart atStop text a
    else captures atStart atStop text b
  | many inner =>
    match lastRound? inner atStop text.length atStart text with
    | some (first, part) => captures first atStop part inner
    | none => []
  | nothing | empty | start | stop | bytes .. => []

def groups (pattern : Pattern) : List Nat :=
  (all pattern).eraseDups.mergeSort fun a b => b ≤ a
where
  all : Pattern → List Nat
    | group number inner => number :: all inner
    | both a b | either a b => all a ++ all b
    | many inner => all inner
    | nothing | empty | start | stop | bytes .. => []

def capture (pattern : Pattern) (atStart atStop : Bool) (text : List UInt8) (index : Nat) :
    List UInt8 :=
  match pattern.groups[index - 1]? with
  | some number => ((pattern.captures atStart atStop text).reverse.lookup number).getD []
  | none => []

/-! ## Building patterns -/

def literal (ignoreCase : Bool) (b : UInt8) : Pattern :=
  if ignoreCase then
    if 0x41 ≤ b && b ≤ 0x5a then bytes [(b, b), (b + 32, b + 32)] false
    else if 0x61 ≤ b && b ≤ 0x7a then bytes [(b, b), (b - 32, b - 32)] false
    else byte b
  else byte b

def sequence (patterns : List Pattern) : Pattern := patterns.foldr after empty

def times (pattern : Pattern) (least : Nat) (most : Option Nat) : Pattern :=
  let required := sequence (List.replicate least pattern)
  match most with
  | none => required.after (many pattern)
  | some most =>
    required.after
      ((List.range (most - least)).foldl (fun rest _ => (pattern.after rest).orElse empty) empty)

/-! ## Reading patterns -/

inductive Grammar
  | basic
  | extended
deriving DecidableEq

structure Reader where
  grammar : Grammar
  ignoreCase : Bool
  /-- In the extended grammar an operator with nothing to work on is let pass, and a closing
  parenthesis without an opening one stands for itself. -/
  lenient : Bool := false

inductive Mistake
  | unmatchedGroup
  | unmatchedClose
  | unmatchedCount
  | badCount
  | tooBig
  | unmatchedBracket
  | incomplete
  | className
  | classSyntax
  | rangeEnd
  | backReference
  | trailingBackslash
  | precedingPattern
deriving DecidableEq

def Mistake.text : Mistake → String
  | unmatchedGroup => "Unmatched ( or \\("
  | unmatchedClose => "Unmatched ) or \\)"
  | unmatchedCount => "Unmatched \\\x7b"
  | badCount => "Invalid content of \\\x7b\\\x7d"
  | tooBig => "Regular expression too big"
  | unmatchedBracket => "Unmatched [, [^, [:, [., or [="
  | incomplete => "Invalid regular expression"
  | className => "Invalid character class name"
  | classSyntax => "character class syntax is [[:space:]], not [:space:]"
  | rangeEnd => "Invalid range end"
  | backReference => "Invalid back reference"
  | trailingBackslash => "Trailing backslash"
  | precedingPattern => "Invalid preceding regular expression"

def classRanges : String → List (UInt8 × UInt8)
  | "lower" => [(0x61, 0x7a)]
  | "upper" => [(0x41, 0x5a)]
  | "digit" => [(0x30, 0x39)]
  | "alpha" => [(0x41, 0x5a), (0x61, 0x7a)]
  | "alnum" => [(0x30, 0x39), (0x41, 0x5a), (0x61, 0x7a)]
  | "xdigit" => [(0x30, 0x39), (0x41, 0x46), (0x61, 0x66)]
  | "blank" => [(0x09, 0x09), (0x20, 0x20)]
  | "space" => [(0x09, 0x0d), (0x20, 0x20)]
  | "punct" => [(0x21, 0x2f), (0x3a, 0x40), (0x5b, 0x60), (0x7b, 0x7e)]
  | "cntrl" => [(0x00, 0x1f), (0x7f, 0x7f)]
  | "graph" => [(0x21, 0x7e)]
  | "print" => [(0x20, 0x7e)]
  | _ => []

def wordRanges : List (UInt8 × UInt8) := classRanges "alnum" ++ [(0x5f, 0x5f)]

def bothCases (ranges : List (UInt8 × UInt8)) : List (UInt8 × UInt8) :=
  ranges ++ ranges.flatMap fun (low, high) =>
    (List.range' low.toNat (high.toNat + 1 - low.toNat)).filterMap fun n =>
      let b := UInt8.ofNat n
      if 0x41 ≤ b && b ≤ 0x5a then some (b + 32, b + 32)
      else if 0x61 ≤ b && b ≤ 0x7a then some (b - 32, b - 32)
      else none

/-- The name of a class or the byte between an opening bracket with a mark and the same mark with a
closing bracket, and what follows. -/
def delimited? (mark : UInt8) (text : List UInt8) : Option (List UInt8 × List UInt8) :=
  let inside := text.takeWhile (· != mark)
  match text.drop inside.length with
  | _ :: 0x5d :: rest => some (inside, rest)
  | _ => none

def readEnd : List UInt8 → Except Mistake (UInt8 × List UInt8)
  | 0x5b :: 0x2e :: rest =>
    match delimited? 0x2e rest with
    | some ([b], rest) => .ok (b, rest)
    | _ => .error .unmatchedBracket
  | b :: rest => .ok (b, rest)
  | [] => .error .unmatchedBracket

def readMembers (isFirst : Bool) : Nat → List UInt8 →
    Except Mistake (List (UInt8 × UInt8) × List UInt8)
  | 0, _ => .error .unmatchedBracket
  | bound + 1, text =>
    match text with
    | [] => .error .unmatchedBracket
    | 0x5d :: rest => if isFirst then single bound text else .ok ([], rest)
    | 0x5b :: 0x3a :: rest =>
      match delimited? 0x3a rest with
      | some (name, rest) => do
        match classRanges ((String.fromUTF8? ⟨name.toArray⟩).getD "") with
        | [] => throw .className
        | named =>
          let (more, rest) ← readMembers false bound rest
          return (named ++ more, rest)
      | none => .error .unmatchedBracket
    | 0x5b :: 0x3d :: rest =>
      match delimited? 0x3d rest with
      | some ([b], rest) => do
        let (more, rest) ← readMembers false bound rest
        return ((b, b) :: more, rest)
      | _ => .error .unmatchedBracket
    | _ => single bound text
where
  single (bound : Nat) (text : List UInt8) :
      Except Mistake (List (UInt8 × UInt8) × List UInt8) := do
    let (b, rest) ← readEnd text
    match rest with
    | 0x2d :: high :: _ =>
      if high == 0x5d then
        let (more, rest) ← readMembers false bound rest
        return ((b, b) :: more, rest)
      else
        let (high, rest) ← readEnd (rest.drop 1)
        if high < b then throw .rangeEnd
        let (more, rest) ← readMembers false bound rest
        return ((b, high) :: more, rest)
    | _ =>
      let (more, rest) ← readMembers false bound rest
      return ((b, b) :: more, rest)

def isBareClass (inside : List UInt8) : Bool :=
  inside.head? == some 0x3a && inside.getLast? == some 0x3a && 2 < inside.length &&
    !inside.contains 0x5b

def readBracket (reader : Reader) (text : List UInt8) :
    Except Mistake (Pattern × List UInt8) := do
  let (negated, text) := match text with
    | 0x5e :: rest => (true, rest)
    | _ => (false, text)
  if text.isEmpty then throw .incomplete
  let (ranges, rest) ← readMembers true (text.length + 1) text
  if isBareClass (text.take (text.length - rest.length - 1)) then throw .classSyntax
  return (bytes (if reader.ignoreCase then bothCases ranges else ranges) negated, rest)

inductive Symbol
  | openGroup
  | closeGroup
  | alternative
  | star
  | plus
  | optional
  | openCount
  | closeCount
  | anchorStart
  | anchorStop
  | anyByte
  | bracket
  | word (negated : Bool)
  | reference (index : Nat)
  | finalBackslash
  | literal (b : UInt8)

/-- The characters that are operators by themselves in the extended grammar, and after a backslash
in the basic one. -/
def groupSymbol? : UInt8 → Option Symbol
  | 0x28 => some .openGroup
  | 0x29 => some .closeGroup
  | 0x7c => some .alternative
  | 0x2b => some .plus
  | 0x3f => some .optional
  | 0x7b => some .openCount
  | 0x7d => some .closeCount
  | _ => none

def symbol? (grammar : Grammar) : List UInt8 → Option (Symbol × List UInt8)
  | [] => none
  | 0x5c :: b :: rest =>
    match groupSymbol? b with
    | some symbol => some (if grammar = .basic then symbol else .literal b, rest)
    | none =>
      if b == 0x77 then some (.word false, rest)
      else if b == 0x57 then some (.word true, rest)
      else if 0x31 ≤ b && b ≤ 0x39 then some (.reference (b.toNat - 0x30), rest)
      else some (.literal b, rest)
  | [0x5c] => some (.finalBackslash, [])
  | b :: rest =>
    match b with
    | 0x2a => some (.star, rest)
    | 0x2e => some (.anyByte, rest)
    | 0x5b => some (.bracket, rest)
    | 0x5e => some (.anchorStart, rest)
    | 0x24 => some (.anchorStop, rest)
    | _ =>
      match groupSymbol? b with
      | some symbol => some (if grammar = .extended then symbol else .literal b, rest)
      | none => some (.literal b, rest)

def mostTimes : Nat := 32767

def counts? (grammar : Grammar) (text : List UInt8) :
    Option (Nat × Option Nat × List UInt8) := do
  let number (digits : List UInt8) : Nat :=
    digits.foldl (fun value b => value * 10 + (b.toNat - 0x30)) 0
  let isDigit (b : UInt8) : Bool := 0x30 ≤ b && b ≤ 0x39
  let least := text.takeWhile isDigit
  let rest := text.drop least.length
  let close (rest : List UInt8) : Option (List UInt8) := do
    match ← symbol? grammar rest with
    | (.closeCount, rest) => some rest
    | _ => none
  match rest with
  | 0x2c :: rest =>
    let most := rest.takeWhile isDigit
    let rest ← close (rest.drop most.length)
    return (number least, if most.isEmpty then none else some (number most), rest)
  | _ =>
    guard (!least.isEmpty)
    let rest ← close rest
    return (number least, some (number least), rest)

def closesCount (grammar : Grammar) : List UInt8 → Bool
  | [] => false
  | b :: rest =>
    (match symbol? grammar (b :: rest) with
      | some (.closeCount, _) => true
      | _ => false) || closesCount grammar rest

/-- Reads the counts of a repetition. In the extended grammar there may be none: the brace stands
for itself. -/
def readCounts (grammar : Grammar) (text : List UInt8) :
    Except Mistake (Option (Nat × Option Nat × List UInt8)) :=
  match counts? grammar text with
  | some (least, most, rest) =>
    if most.any (· < least) then .error .badCount
    else if mostTimes < most.getD least then .error .tooBig
    else .ok (some (least, most, rest))
  | none =>
    if grammar = .extended then .ok none
    else if closesCount grammar text then .error .badCount
    else .error .unmatchedCount

def readRepeats (grammar : Grammar) : Nat → Pattern → List UInt8 →
    Except Mistake (Pattern × List UInt8)
  | 0, pattern, text => .ok (pattern, text)
  | bound + 1, pattern, text =>
    match symbol? grammar text with
    | some (.star, rest) => readRepeats grammar bound (many pattern) rest
    | some (.plus, rest) => readRepeats grammar bound (pattern.after (many pattern)) rest
    | some (.optional, rest) => readRepeats grammar bound (pattern.orElse empty) rest
    | some (.openCount, rest) => do
      match ← readCounts grammar rest with
      | some (least, most, rest) => readRepeats grammar bound (pattern.times least most) rest
      | none => return (pattern, text)
    | _ => .ok (pattern, text)

mutual

def readAlternatives (reader : Reader) (depth : Nat) : Nat → List UInt8 →
    Except Mistake (Pattern × List UInt8)
  | 0, text => .ok (empty, text)
  | bound + 1, text => do
    let (first, rest) ← readSequence reader depth true bound text
    match symbol? reader.grammar rest with
    | some (.alternative, rest) =>
      let (others, rest) ← readAlternatives reader depth bound rest
      return (first.orElse others, rest)
    | _ => return (first, rest)

def readSequence (reader : Reader) (depth : Nat) (atHead : Bool) : Nat → List UInt8 →
    Except Mistake (Pattern × List UInt8)
  | 0, text => .ok (empty, text)
  | bound + 1, text => do
    let repeated (pattern : Pattern) (rest : List UInt8) :
        Except Mistake (Pattern × List UInt8) := do
      let (pattern, rest) ← readRepeats reader.grammar (rest.length + 1) pattern rest
      let (others, rest) ← readSequence reader depth false bound rest
      return (pattern.after others, rest)
    match symbol? reader.grammar text with
    | none | some (.alternative, _) => return (empty, text)
    | some (.closeGroup, rest) =>
      if depth = 0 then
        if reader.grammar = .extended && reader.lenient then repeated (byte 0x29) rest
        else throw .unmatchedClose
      else return (empty, text)
    | some (.openGroup, opened) =>
      let (inner, rest) ← readAlternatives reader (depth + 1) bound opened
      match symbol? reader.grammar rest with
      | some (.closeGroup, rest) => repeated (group opened.length inner) rest
      | _ => throw .unmatchedGroup
    | some (.anchorStart, rest) =>
      if atHead || reader.grammar = .extended then
        let (others, rest) ← readSequence reader depth true bound rest
        return (start.after others, rest)
      else repeated (byte 0x5e) rest
    | some (.anchorStop, rest) =>
      let isLast := match symbol? reader.grammar rest with
        | none | some (.alternative, _) | some (.closeGroup, _) => true
        | _ => false
      if isLast || reader.grammar = .extended then
        let (others, rest) ← readSequence reader depth false bound rest
        return (stop.after others, rest)
      else repeated (byte 0x24) rest
    | some (.star, rest) =>
      if atHead && reader.grammar = .extended then
        if reader.lenient then readSequence reader depth true bound rest
        else throw .precedingPattern
      else repeated (byte 0x2a) rest
    | some (.plus, rest) =>
      if atHead && reader.grammar = .extended then
        if reader.lenient then readSequence reader depth true bound rest
        else throw .precedingPattern
      else repeated (byte 0x2b) rest
    | some (.optional, rest) =>
      if atHead && reader.grammar = .extended then
        if reader.lenient then readSequence reader depth true bound rest
        else throw .precedingPattern
      else repeated (byte 0x3f) rest
    | some (.openCount, rest) =>
      if atHead && reader.grammar = .basic then throw .precedingPattern
      else repeated (byte 0x7b) rest
    | some (.closeCount, rest) => repeated (byte 0x7d) rest
    | some (.anyByte, rest) => repeated any rest
    | some (.bracket, rest) =>
      let (pattern, rest) ← readBracket reader rest
      repeated pattern rest
    | some (.word negated, rest) => repeated (bytes wordRanges negated) rest
    | some (.reference index, rest) => repeated (byte (0x30 + UInt8.ofNat index)) rest
    | some (.finalBackslash, _) => throw .trailingBackslash
    | some (.literal b, rest) => repeated (Pattern.literal reader.ignoreCase b) rest

end

def refersAhead (reader : Reader) (groups : Nat) : Nat → List UInt8 → Bool
  | 0, _ => false
  | bound + 1, text =>
    match symbol? reader.grammar text with
    | none => false
    | some (.closeGroup, rest) => refersAhead reader (groups + 1) bound rest
    | some (.reference index, rest) => groups < index || refersAhead reader groups bound rest
    | some (.bracket, rest) =>
      match readBracket reader rest with
      | .ok (_, rest) => refersAhead reader groups bound rest
      | .error _ => false
    | some (_, rest) => refersAhead reader groups bound rest

def read (reader : Reader) (text : List UInt8) : Except Mistake Pattern := do
  if refersAhead reader 0 text.length text then throw .backReference
  let (pattern, _) ← readAlternatives reader 0 (2 * text.length + 2) text
  return pattern

def exactly (ignoreCase : Bool) (text : List UInt8) : Pattern :=
  sequence (text.map (literal ignoreCase))

end Pattern

end PipelineShell.Utility
