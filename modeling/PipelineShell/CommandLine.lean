import PipelineShell.Settings
import PipelineShell.Text.Similarity
import PipelineShell.Text.Utf8
import PipelineShell.Token

/-!
# The command line

The options of the program and what is wrong with a command line that does not follow them. The
value of an option is taken up when the next option is met or the arguments end, so that its own
mistakes come to light only then.
-/

namespace PipelineShell.CommandLine

inductive OptionName
  | command
  | sequential
  | debug
  | help
  | version
deriving Repr, DecidableEq

namespace OptionName

def all : List OptionName := [command, sequential, debug, help, version]

def long : OptionName → String
  | command => "command"
  | sequential => "sequential"
  | debug => "debug"
  | help => "help"
  | version => "version"

def short? : OptionName → Option Char
  | command => some 'c'
  | sequential => none
  | debug => some 'd'
  | help => some 'h'
  | version => some 'V'

def takesValue : OptionName → Bool
  | command => true
  | _ => false

def ofLong? (name : Word) : Option OptionName := all.find? (·.long.toList == name)

def ofShort? (c : Char) : Option OptionName := all.find? (·.short? == some c)

def usage : OptionName → String
  | command => "--command <LINE>"
  | name => "--" ++ name.long

end OptionName

abbrev Argument := List (Option Char)

def Argument.text (argument : Argument) : String := String.ofList (Utf8.replaced argument)

inductive UsageError
  | help
  | version
  | unknownArgument (text : String) (similar : Option OptionName) (used : List OptionName)
  | missingValue (name : OptionName)
  | repeatedOption (name : OptionName)
  | unneededValue (name : OptionName) (value : String) (used : List OptionName)
  | invalidVariable (value : String)
  | invalidText
deriving Repr, DecidableEq

def debugVariable : String := "PIPESH_DEBUG"

structure Options where
  command : Option Word := none
  sequential : Bool := false
  debug : Bool := false
deriving Repr, DecidableEq

structure State where
  options : Options := {}
  found : List OptionName := []
  pending : Option (Option Argument) := none
  awaitsValue : Bool := false

namespace State

def resolve (state : State) : Except (UsageError × List OptionName) State :=
  let settled := { state with pending := none, awaitsValue := false }
  match state.pending with
  | none => .ok settled
  | some none => .error (.missingValue .command, state.found)
  | some (some value) =>
    if OptionName.command ∈ state.found then
      .error (.repeatedOption .command, state.found.filter (· ≠ .command))
    else
      let found := state.found ++ [.command]
      match Utf8.wellFormed? value with
      | some text =>
        .ok { settled with found, options := { state.options with command := some text } }
      | none => .error (.invalidText, found)

def foundAfterResolve (state : State) : List OptionName :=
  match state.resolve with
  | .ok state => state.found
  | .error (_, found) => found

def settle (state : State) : Except UsageError State :=
  state.resolve.mapError fun (error, _) => error

def readFlag (state : State) (name : OptionName) : Except UsageError State := do
  let state ← state.settle
  match name with
  | .help => throw .help
  | .version => throw .version
  | _ =>
    if name ∈ state.found then throw (.repeatedOption name)
    let options :=
      if name = .debug then { state.options with debug := true }
      else { state.options with sequential := true }
    return { state with options, found := state.found ++ [name] }

def readOption (state : State) (attached : Option Argument) : Except UsageError State := do
  let state ← state.settle
  match attached with
  | some value => settle { state with pending := some (some value) }
  | none => return { state with pending := some none, awaitsValue := true }

def readLong (state : State) (name : Argument) (value : Option Argument) :
    Except UsageError State := do
  match (Utf8.wellFormed? name).bind OptionName.ofLong? with
  | some option =>
    if option.takesValue then state.readOption value
    else
      match value with
      | none => state.readFlag option
      | some value => throw (.unneededValue option value.text (state.found ++ [option]))
  | none =>
    let similar :=
      (Utf8.wellFormed? name).bind fun name =>
        (Similarity.closest? name (OptionName.all.map OptionName.long)).bind fun long =>
          OptionName.ofLong? long.toList
    let found := state.foundAfterResolve
    let used := found ++ (similar.toList.filter (· ∉ found))
    throw (.unknownArgument ("--" ++ name.text) similar used)

def attachedValue : Argument → Option Argument
  | [] => none
  | some '=' :: value => some value
  | value => some value

def readShort (state : State) : Argument → Except UsageError State
  | [] => return state
  | some c :: rest => do
    match OptionName.ofShort? c with
    | some option =>
      if option.takesValue then state.readOption (attachedValue rest)
      else readShort (← state.readFlag option) rest
    | none => throw (.unknownArgument (String.ofList ['-', c]) none [])
  | none :: rest => throw (.unknownArgument ("-" ++ Argument.text (none :: rest)) none [])

def readPlain (state : State) (argument : Argument) : Except UsageError State :=
  if state.awaitsValue then
    .ok { state with pending := some (some argument), awaitsValue := false }
  else .error (.unknownArgument argument.text none [])

def splitValue (argument : Argument) : Argument × Option Argument :=
  match argument.span (· ≠ some '=') with
  | (name, _ :: value) => (name, some value)
  | (name, []) => (name, none)

def read (state : State) (argument : Argument) : Except UsageError State :=
  match argument with
  | some '-' :: some '-' :: rest =>
    let (name, value) := splitValue rest
    state.readLong name value
  | some '-' :: c :: rest => state.readShort (c :: rest)
  | _ => state.readPlain argument

def readAll (state : State) : List Argument → Except UsageError State
  | [] => state.settle
  | argument :: rest => do
    if argument = [some '-', some '-'] then
      match rest with
      | [] => state.settle
      | extra :: _ => throw (.unknownArgument extra.text none [])
    else readAll (← state.read argument) rest

end State

def applyVariable (state : State) (environment : Environment) : Except UsageError Options :=
  if OptionName.debug ∈ state.found then .ok state.options
  else
    match environment.lookup debugVariable with
    | none => .ok state.options
    | some "true" => .ok { state.options with debug := true }
    | some "false" => .ok state.options
    | some value => .error (.invalidVariable value)

def parse (arguments : List (List UInt8)) (environment : Environment) :
    Except UsageError Options := do
  let state ← State.readAll {} (arguments.map Utf8.parts)
  applyVariable state environment

namespace Options

def settings (options : Options) (colored : Bool) : Settings where
  scheduling := if options.sequential then .sequential else .concurrent
  console := { debug := options.debug, colored }

end Options

end PipelineShell.CommandLine
