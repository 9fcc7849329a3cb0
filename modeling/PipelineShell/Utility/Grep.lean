import PipelineShell.Utility.Basic
import PipelineShell.Utility.Pattern

namespace PipelineShell.Utility

open PipelineShell.Action Host

namespace Grep

structure Options where
  patterns : List Pattern
  invert : Bool
  wholeWord : Bool
  count : Bool
  quiet : Bool
  silent : Bool
  numbers : Bool
  onlyMatching : Bool
  namesOnly : Bool
  namesWithout : Bool
  showNames : Bool
  limit : Option Nat
  context : Option (Nat × Nat)

def isWordByte (b : UInt8) : Bool := Pattern.inRanges Pattern.wordRanges false b

def occurrences (patterns : List Pattern) (wholeWord : Bool) (position : Nat)
    (before : Option UInt8) (skip : Nat) : List UInt8 → List (Nat × Nat)
  | [] => []
  | b :: rest =>
    match skip with
    | skip + 1 => occurrences patterns wholeWord (position + 1) (some b) skip rest
    | 0 =>
      let lengths := patterns.filterMap fun pattern =>
        pattern.longest? before.isNone 0 none (b :: rest)
      let length := lengths.foldl max 0
      let follows := ((b :: rest).drop length).head?
      let fits := !wholeWord || (!before.any isWordByte && !follows.any isWordByte)
      if 0 < length && fits then
        (position, length) ::
          occurrences patterns wholeWord (position + 1) (some b) (length - 1) rest
      else occurrences patterns wholeWord (position + 1) (some b) 0 rest

def selects (options : Options) (line : List UInt8) : Bool :=
  let found :=
    if options.wholeWord then !(occurrences options.patterns true 0 none 0 line).isEmpty
    else options.patterns.any (·.occursIn line)
  found != options.invert

structure Progress where
  number : Nat := 0
  selected : Nat := 0
  binary : Bool := false
  held : List (Nat × ByteArray) := []
  owed : Nat := 0
  lastShown : Nat := 0
  anyShown : Bool := false

def lead (options : Options) (label mark : String) (number : Nat) : ByteArray :=
  ((if options.showNames then label ++ mark else "") ++
    (if options.numbers then toString number ++ mark else "")).toUTF8

def near (options : Options) (label : String) (number : Nat) (line : ByteArray) : ByteArray :=
  lead options label "-" number ++ terminated line

def selectedText (options : Options) (label : String) (number : Nat) (line : ByteArray) :
    ByteArray :=
  let lead := lead options label ":" number
  if options.onlyMatching then
    (occurrences options.patterns options.wholeWord 0 none 0 line.toList).foldl
      (fun output (position, length) =>
        output ++ lead ++ terminated (line.extract position (position + length)))
      ByteArray.empty
  else lead ++ terminated line

def isDecided (options : Options) (progress : Progress) : Bool :=
  0 < progress.selected && (options.quiet || options.namesOnly || options.namesWithout)

def isFull (options : Options) (progress : Progress) : Bool :=
  options.limit.any (· ≤ progress.selected)

def select (options : Options) (label : String) (line : ByteArray) (progress : Progress) :
    Progress × ByteArray :=
  let progress := { progress with selected := progress.selected + 1 }
  let hides := options.count || options.quiet || options.namesOnly || options.namesWithout ||
    progress.binary
  if hides then (progress, ByteArray.empty)
  else
    let first := (progress.held.getLast?.map (·.1)).getD progress.number
    let separator :=
      let adjoins := progress.lastShown ≠ 0 && first = progress.lastShown + 1
      if options.context.isSome && progress.anyShown && !adjoins then
        "--\n".toUTF8
      else ByteArray.empty
    let before := progress.held.foldr (fun (number, line) output =>
      output ++ near options label number line) ByteArray.empty
    ({ progress with
        held := [], owed := (options.context.getD (0, 0)).2, lastShown := progress.number
        anyShown := true },
      separator ++ before ++ selectedText options label progress.number line)

def pass (options : Options) (label : String) (line : ByteArray) (progress : Progress) :
    Progress × ByteArray :=
  if 0 < progress.owed then
    ({ progress with owed := progress.owed - 1, lastShown := progress.number },
      if options.onlyMatching then ByteArray.empty
      else near options label progress.number line)
  else
    let held := (progress.number, line) :: progress.held
    let most := if options.onlyMatching then 0 else (options.context.getD (0, 0)).1
    ({ progress with held := held.take most }, ByteArray.empty)

/-- Goes through lines until enough have been selected and shown; returns the output and whether
that is so. -/
def search (options : Options) (label : String) (progress : Progress) (output : ByteArray) :
    List ByteArray → Progress × ByteArray × Bool
  | [] => (progress, output, false)
  | line :: rest =>
    let progress := { progress with number := progress.number + 1 }
    let (progress, shown) :=
      if !isFull options progress && selects options line.toList then
        select options label line progress
      else pass options label line progress
    let output := output ++ shown
    if isDecided options progress || (isFull options progress && progress.owed = 0) then
      (progress, output, true)
    else search options label progress output rest

def isOwnOutput (options : Options) (descriptor : Descriptor) : Action Bool := do
  let shows := !(options.quiet || options.namesOnly || options.namesWithout || options.count)
  if !shows || options.limit.any (· ≤ 1) then return false
  let input ← perform (.descriptorInfo descriptor)
  let output ← perform (.descriptorInfo standardOutput)
  return match input, output with
    | .ok input, .ok output => input.kind = .regular && input.identity = output.identity
    | _, _ => false

/-- Searches one input. The result is whether any line was selected, or what went wrong, and
whether any line has been shown so far. -/
def searchInput (options : Options) (anyShown : Bool) (label : String)
    (descriptor : Descriptor) : Action (Except String Bool × Bool) := do
  if ← isOwnOutput options descriptor then
    return (.error "input file is also the output", anyShown)
  let (progress, error) ←
    if options.limit = some 0 then pure ({ anyShown }, none)
    else
      foldLines descriptor
        (fun (progress : Progress) lines _ => do
          let progress :=
            { progress with binary := progress.binary || lines.any (·.toList.contains 0) }
          let (progress, output, enough) :=
            search options label progress ByteArray.empty lines.toList
          let _ ← put output
          return if enough then .leave (progress, none) else .again progress)
        (fun progress error => return (progress, error)) { anyShown }
  match error with
  | some errno => return (.error (errorText errno), progress.anyShown)
  | none =>
    let found := 0 < progress.selected
    let lead := if options.showNames then label ++ ":" else ""
    if options.quiet then pure ()
    else if options.namesOnly then
      if found then
        let _ ← putText (label ++ "\n")
    else if options.namesWithout then
      if !found then
        let _ ← putText (label ++ "\n")
    else if options.count then
      let _ ← putText (lead ++ toString progress.selected ++ "\n")
    else if found && progress.binary then
      complain "grep" (label ++ ": binary file matches")
    return (.ok found, progress.anyShown)

/-- Searches inputs, each given by its path and its label, in order; the results are whether
anything was found and whether anything went wrong. -/
def searchAll (name : String) (options : Options) (anyShown : Bool) :
    List (String × String) → Action (Bool × Bool)
  | [] => return (false, false)
  | (path, label) :: rest => do
    let failed (reason : String) : Action Unit := do
      if !options.silent then complain name (label ++ ": " ++ reason)
    let (result, anyShown) ← match ← openInput path with
      | .error errno => pure (.error (errorText errno), anyShown)
      | .ok descriptor => do
        let result ← searchInput options anyShown label descriptor
        closeInput descriptor
        pure result
    match result with
    | .ok true =>
      if options.quiet then return (true, false)
      let (_, wrong) ← searchAll name options anyShown rest
      return (true, wrong)
    | .ok false => searchAll name options anyShown rest
    | .error reason =>
      failed reason
      let (found, _) ← searchAll name options anyShown rest
      return (found, true)

/-! ## Directories -/

mutual

/-- The regular files in a directory and below it, down to a depth. With `follows` a link counts as
what it leads to. -/
def filesBelow (follows : Bool) (depth : Nat) (directory : String) : Action (List String) := do
  match depth with
  | 0 => return []
  | depth + 1 =>
    match ← perform (.listDirectory directory) with
    | .error _ => return []
    | .ok names =>
      filesAmong follows depth (names.map fun name =>
        if directory.endsWith "/" then directory ++ name else directory ++ "/" ++ name)
termination_by (depth, 0)

def filesAmong (follows : Bool) (depth : Nat) (paths : List String) : Action (List String) := do
  match paths with
  | [] => return []
  | path :: rest =>
    let found ← match (← perform (.fileInfo path follows)).toOption.map (·.kind) with
      | some FileKind.directory => filesBelow follows depth path
      | some FileKind.regular => pure [path]
      | _ => pure []
    return found ++ (← filesAmong follows depth rest)
termination_by (depth, paths.length + 1)

end

def mostNested : Nat := 4096

def inputsOf (follows : Bool) (operand : String) : Action (List String) := do
  if operand = "-" then return [operand]
  match ← perform (.fileInfo operand true) with
  | .ok info =>
    if info.kind = .directory then filesBelow follows mostNested operand else return [operand]
  | .error _ => return [operand]

def allInputs (follows : Bool) : List String → Action (List String)
  | [] => return []
  | operand :: rest => do
    let inputs ← inputsOf follows operand
    return inputs ++ (← allInputs follows rest)

def digits : List Char := ['0', '1', '2', '3', '4', '5', '6', '7', '8', '9']

def table : OptionTable where
  flags := ['E', 'F', 'G', 'P', 'a', 'c', 'h', 'H', 'i', 'y', 'l', 'L', 'n', 'o', 'q', 'r', 'R',
    's', 'v', 'w', 'x', 'z'] ++ digits
  values := ['A', 'B', 'C', 'e', 'm']
  long := [("extended-regexp", 'E'), ("fixed-strings", 'F'), ("basic-regexp", 'G'),
    ("ignore-case", 'i'), ("invert-match", 'v'), ("word-regexp", 'w'), ("line-regexp", 'x'),
    ("count", 'c'), ("line-number", 'n'), ("only-matching", 'o'), ("quiet", 'q'), ("silent", 'q'),
    ("no-messages", 's'), ("files-with-matches", 'l'), ("files-without-match", 'L'),
    ("max-count", 'm'), ("regexp", 'e'), ("text", 'a'), ("with-filename", 'H'),
    ("no-filename", 'h'), ("recursive", 'r'), ("dereference-recursive", 'R'),
    ("after-context", 'A'), ("before-context", 'B'), ("context", 'C')]

def readContext (parsed : Parsed) : Except String (Option (Nat × Nat)) := do
  let number := String.ofList ((parsed.options.map (·.1)).filter digits.contains)
  let length? (letter : Char) : Except String (Option Nat) :=
    match parsed.value? letter with
    | none => .ok none
    | some text =>
      match text.toNat? with
      | some n => .ok (some n)
      | none => .error text
  let before ← length? 'B'
  let after ← length? 'A'
  let around := (← length? 'C') <|> number.toNat?
  match before <|> around, after <|> around with
  | none, none => return none
  | before, after => return some (before.getD 0, after.getD 0)

def readPattern (parsed : Parsed) (fixed : Bool) (grammar : Pattern.Grammar) (line : ByteArray) :
    Except Pattern.Mistake Pattern := do
  let ignoreCase := parsed.has 'i' || parsed.has 'y'
  let pattern ←
    if fixed then pure (Pattern.exactly ignoreCase line.toList)
    else Pattern.read { grammar, ignoreCase, lenient := true } line.toList
  return if parsed.has 'x' then Pattern.sequence [.start, pattern, .stop] else pattern

def warn (name : String) : List String → Action Unit
  | [] => return
  | text :: rest => do
    match text.toList with
    | c :: _ =>
      if c ∈ ['*', '+', '?'] then
        complain name ("warning: " ++ c.toString ++ " at start of expression")
    | [] => pure ()
    warn name rest

def usage : String :=
  "Usage: grep [OPTION]... PATTERNS [FILE]...\nTry 'grep --help' for more information.\n"

def run (invocation : Invocation) (defaultLetter : Char) (parsed : Parsed) : Action Nat := do
  let given := (parsed.options.filter (·.1 = 'e')).map (·.2)
  let (texts, paths) :=
    if given.isEmpty then (parsed.operands.take 1, parsed.operands.drop 1)
    else (given, parsed.operands)
  if texts.isEmpty then
    let _ ← writeAll standardError usage.toUTF8
    return 2
  let kind := ((parsed.options.filter fun (letter, _) =>
    letter = 'E' || letter = 'F' || letter = 'G' || letter = 'P').getLast?.map (·.1)).getD
      defaultLetter
  let grammar := if kind = 'E' || kind = 'P' then Pattern.Grammar.extended else .basic
  let lines := texts.flatMap fun text =>
    (text.splitToList (· == '\n')).map String.toUTF8
  let refuse (message : String) : Action Nat := do
    complain invocation.name message
    return 2
  let limit := (parsed.value? 'm').map sizeOf?
  match readContext parsed, limit, lines.mapM (readPattern parsed (kind = 'F') grammar) with
  | .error text, _, _ => refuse (text ++ ": invalid context length argument")
  | _, some none, _ => refuse "invalid max count"
  | _, _, .error mistake => refuse mistake.text
  | .ok context, _, .ok patterns =>
    if kind = 'E' then warn invocation.name texts
    let recursive := parsed.has 'r' || parsed.has 'R'
    let follows := parsed.has 'R'
    let (inputs, several) ←
      if !recursive then
        let paths := if paths.isEmpty then ["-"] else paths
        pure (paths.map fun path => (path, path), decide (2 ≤ paths.length))
      else if paths.isEmpty then
        let found ← inputsOf follows "."
        pure (found.map fun path => (path, (path.drop 2).toString), true)
      else
        let found ← allInputs follows paths
        pure (found.map fun path => (path, path), decide (2 ≤ paths.length || found ≠ paths))
    let options : Options := {
      patterns, context, invert := parsed.has 'v', wholeWord := parsed.has 'w'
      count := parsed.has 'c', quiet := parsed.has 'q', silent := parsed.has 's'
      numbers := parsed.has 'n', onlyMatching := parsed.has 'o', namesOnly := parsed.has 'l'
      namesWithout := parsed.has 'L'
      showNames := !parsed.has 'h' && (parsed.has 'H' || several)
      limit := limit.join }
    let labelled := inputs.map fun (path, label) =>
      (path, if path = "-" then "(standard input)" else label)
    let (found, wrong) ← searchAll invocation.name options false labelled
    return if found && options.quiet then 0 else if wrong then 2 else if found then 0 else 1

def program (defaultLetter : Char) : Program := fun invocation => do
  match readOptions table (invocation.arguments.length + 1) {} invocation.arguments with
  | .ok parsed => run invocation defaultLetter parsed
  | .error message =>
    complain invocation.name message
    let _ ← writeAll standardError usage.toUTF8
    return 2

end Grep

def grep : Program := Grep.program 'G'

end PipelineShell.Utility
