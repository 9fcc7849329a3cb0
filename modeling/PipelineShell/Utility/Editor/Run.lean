import PipelineShell.Utility.Editor.Parse

namespace PipelineShell.Utility

open PipelineShell.Action Host

namespace Editor

/-! ## Input -/

structure Input where
  paths : List String
  source : Option Descriptor := none
  lines : List (ByteArray × Bool) := []
  rest : ByteArray := ByteArray.empty
  status : Nat := 0

namespace Input

def blockSize : Nat := 4096

def close (input : Input) : Action Input := do
  if let some descriptor := input.source then closeInput descriptor
  let lines := if input.rest.isEmpty then input.lines else input.lines ++ [(input.rest, false)]
  return { input with source := none, lines, rest := ByteArray.empty }

def fill (name : String) : Input → Action Input :=
  loop (fun input => do
    if 2 ≤ input.lines.length then return .leave input
    match input.source, input.paths with
    | none, [] => return .leave input
    | none, path :: paths =>
      match ← openInput path with
      | .ok descriptor => return .again { input with source := some descriptor, paths }
      | .error errno =>
        complain name ("can't read " ++ path ++ ": " ++ errorText errno)
        return .again { input with paths, status := 2 }
    | some descriptor, paths =>
      match ← perform (.read descriptor blockSize) with
      | .ok data =>
        if data.isEmpty then return .again (← input.close)
        let (lines, rest) := splitLines (input.rest ++ data)
        return .again { input with
          lines := input.lines ++ lines.toList.map fun line => (line, true), rest, paths }
      | .error errno =>
        complain name ("couldn't read: " ++ errorText errno)
        return .again { ← input.close with status := 2 })
    patience

def giveBack (input : Input) : Action Unit := do
  if input.source = some standardInput then
    let size := input.lines.foldl (fun size (line, _) => size + line.size + 1) input.rest.size
    let _ ← perform (.seek standardInput (-(size : Int)) .current)

end Input

/-! ## State -/

structure State where
  input : Input
  space : ByteArray := ByteArray.empty
  closed : Bool := true
  held : ByteArray := ByteArray.empty
  number : Nat := 0
  position : Nat := 0
  appended : List (List UInt8) := []
  begun : List (Nat × Nat) := []
  replaced : Bool := false
  owesNewline : Bool := false

namespace State

def write (state : State) (text : ByteArray) (closed : Bool) : Action State := do
  let lead := if state.owesNewline then terminated ByteArray.empty else ByteArray.empty
  let _ ← put (lead ++ (if closed then terminated text else text))
  return { state with owesNewline := !closed }

def writeSpace (state : State) : Action State := state.write state.space state.closed

def conclude (state : State) (prints : Bool) : Action State := do
  let state ← if prints then state.writeSpace else pure state
  let mut state := state
  for text in state.appended do
    state ← state.write ⟨text.dropLast.toArray⟩ true
  return { state with appended := [] }

def nextLine (name : String) (state : State) : Action (Option (ByteArray × Bool) × State) := do
  let input ← state.input.fill name
  match input.lines with
  | [] => return (none, { state with input })
  | line :: lines =>
    let input ← { input with lines }.fill name
    return (some line, { state with input, number := state.number + 1 })

def isLast (state : State) : Bool := state.input.lines.isEmpty

def fits (state : State) : Address → Bool
  | .line number => state.number = number
  | .every first step =>
    if step = 0 then state.number = first
    else first ≤ state.number && (state.number - first) % step = 0
  | .last => state.isLast
  | .pattern pattern => pattern.occursIn state.space.toList

/-- Whether a range with a first address applies to the current line, and the ranges that have
begun after it. -/
def inRange (state : State) (position : Nat) (first : Address) (stop : RangeEnd) :
    Bool × List (Nat × Nat) :=
  let others := state.begun.filter (·.1 ≠ position)
  match state.begun.lookup position with
  | some last =>
    match stop with
    | .address (.line _) | .after _ =>
      (state.number ≤ last, if last ≤ state.number then others else state.begun)
    | .address address => (true, if state.fits address then others else state.begun)
  | none =>
    if !state.fits first then (false, others)
    else
      let last := match stop with
        | .address (.line number) => number
        | .after count => state.number + count
        | .address _ => state.number + 1
      (true, if state.number < last then (position, last) :: others else others)

def selects (state : State) (selection : Selection) : Bool × State :=
  let (selected, begun) := match selection.first, selection.stop with
    | none, _ => (true, state.begun)
    | some first, none => (state.fits first, state.begun)
    | some first, some stop => state.inRange state.position first stop
  (selected != selection.negated, { state with begun })

def firstLine (state : State) : ByteArray × Option ByteArray :=
  match newlineFrom state.space 0 with
  | some found =>
    (state.space.extract 0 found, some (state.space.extract (found + 1) state.space.size))
  | none => (state.space, none)

end State

/-! ## Turns -/

structure Options where
  name : String
  prints : Bool
  commands : Array Command

namespace Options

def labelPosition (options : Options) (name : String) : Nat :=
  if name.isEmpty then options.commands.size
  else
    (options.commands.findIdx? fun command =>
      match command.task with
      | .label other => other = name
      | _ => false).getD options.commands.size

def leave (options : Options) (state : State) (prints : Bool) (status : Nat) :
    Action (Turn State Nat) := do
  let state ← state.conclude (prints && options.prints)
  state.input.giveBack
  return .leave (max status state.input.status)

def nextCycle (options : Options) (state : State) : Action (Turn State Nat) := do
  match ← state.nextLine options.name with
  | (some (space, closed), state) =>
    return .again { state with space, closed, position := 0, replaced := false }
  | (none, state) => return .leave state.input.status

def carryOut (options : Options) (state : State) (ranged : Bool) :
    Task → Action (Turn State Nat)
  | .print => return .again (← state.writeSpace)
  | .printFirst => return .again (← state.write state.firstLine.1 true)
  | .printNumber => return .again (← state.write (toString state.number).toUTF8 true)
  | .delete => do options.nextCycle (← state.conclude false)
  | .deleteFirst => do
    match state.firstLine with
    | (_, some space) =>
      let state ← state.conclude false
      return .again { state with space, position := 0 }
    | (_, none) => options.nextCycle (← state.conclude false)
  | .quit status silently => options.leave state (!silently) status
  | .substitute substitution => do
    match substitution.apply state.space.toList with
    | (space, true) =>
      let state := { state with space := ⟨space.toArray⟩, replaced := true }
      return .again (← if substitution.print then state.writeSpace else pure state)
    | (_, false) => return .again state
  | .transliterate pairs =>
    let space := state.space.toList.map fun b => (pairs.lookup b).getD b
    return .again { state with space := ⟨space.toArray⟩ }
  | .append text => return .again { state with appended := state.appended ++ [text] }
  | .insert text => return .again (← state.write ⟨text.dropLast.toArray⟩ true)
  | .change text => do
    let within := ranged && state.begun.any (·.1 + 1 = state.position)
    let state ← if within then pure state else state.write ⟨text.dropLast.toArray⟩ true
    options.nextCycle (← state.conclude false)
  | .next => do
    if state.isLast then options.leave state true 0
    else
      let state ← state.conclude options.prints
      match ← state.nextLine options.name with
      | (some (space, closed), state) => return .again { state with space, closed }
      | (none, state) => options.leave state false 0
  | .joinNext => do
    if state.isLast then options.leave state true 0
    else
      match ← state.nextLine options.name with
      | (some (line, closed), state) =>
        return .again { state with space := terminated state.space ++ line, closed }
      | (none, state) => options.leave state true 0
  | .hold => return .again { state with held := state.space }
  | .holdMore => return .again { state with held := terminated state.held ++ state.space }
  | .get => return .again { state with space := state.held }
  | .getMore => return .again { state with space := terminated state.space ++ state.held }
  | .exchange => return .again { state with space := state.held, held := state.space }
  | .label _ | .block _ => return .again state
  | .branch name => return .again { state with position := options.labelPosition name }
  | .branchIfReplaced name =>
    return .again <|
      if state.replaced then
        { state with replaced := false, position := options.labelPosition name }
      else state

def turn (options : Options) (state : State) : Action (Turn State Nat) := do
  match options.commands[state.position]? with
  | none => options.nextCycle (← state.conclude options.prints)
  | some command =>
    let (selected, state) := state.selects command.selection
    let skipped := match command.task with
      | .block length => if selected then 0 else length
      | _ => 0
    let state := { state with position := state.position + 1 + skipped }
    if selected then options.carryOut state command.selection.stop.isSome command.task
    else return .again state

end Options

def table : OptionTable where
  flags := ['n', 'E', 'r', 's', 'u', 'z']
  values := ['e', 'f']
  long := [("quiet", 'n'), ("silent", 'n'), ("regexp-extended", 'E'), ("expression", 'e'),
    ("separate", 's'), ("unbuffered", 'u')]

def usage : String :=
  "Usage: sed [OPTION]... \x7bscript-only-if-no-other-script\x7d [input-file]...\n"

def run (invocation : Invocation) (parsed : Parsed) : Action Nat := do
  let given := (parsed.options.filter (·.1 = 'e')).map (·.2)
  let (texts, paths) :=
    if given.isEmpty then (parsed.operands.take 1, parsed.operands.drop 1)
    else (given, parsed.operands)
  if texts.isEmpty then
    let _ ← writeAll standardError usage.toUTF8
    return 1
  match readScript (parsed.has 'E' || parsed.has 'r') ("\n".intercalate texts) with
  | .error message =>
    complain invocation.name message
    return 1
  | .ok commands =>
    let options : Options :=
      { name := invocation.name, prints := !parsed.has 'n', commands := commands.toArray }
    let input : Input := { paths := if paths.isEmpty then ["-"] else paths }
    let start : State := { input }
    match ← options.nextCycle start with
    | .leave status => return status
    | .again state => loop options.turn patience state

end Editor

def sed : Program := fun invocation =>
  withOptions invocation Editor.table (Editor.run invocation)

end PipelineShell.Utility
