import PipelineShell.System.Action

/-!
# Settings and diagnostics

What the command line and the environment decide for a whole run, and how the interpreter speaks
to its user: errors and, if asked for, debug messages go to standard error.
-/

namespace PipelineShell

/-- When a stage is started: as soon as the one before it runs, or once that one has ended. -/
inductive Scheduling
  | concurrent
  | sequential
deriving Repr, DecidableEq

def Scheduling.name : Scheduling → String
  | concurrent => "Concurrent"
  | sequential => "Sequential"

structure Console where
  debug : Bool := false
  colored : Bool := false
deriving Repr, DecidableEq

structure Settings where
  scheduling : Scheduling := .concurrent
  console : Console := {}
deriving Repr, DecidableEq

inductive Style
  | boldRed
  | red
  | boldGreen
  | blue
  | dimmed

def Style.code : Style → String
  | boldRed => "1;31"
  | red => "31"
  | boldGreen => "1;32"
  | blue => "34"
  | dimmed => "2"

namespace Console

/-- Colours are used only where the environment insists on them. -/
def colorsForced (environment : Environment) : Bool :=
  (environment.lookup "CLICOLOR_FORCE").any (· != "0")

def styled (console : Console) (style : Style) (text : String) : String :=
  if console.colored && !text.isEmpty then
    "\x1b[" ++ style.code ++ "m" ++ text ++ "\x1b[0m"
  else text

/-- Writes a text to standard output. A process that cannot do so gives up. -/
def print (text : String) : Action Unit := do
  match ← Action.perform (.print text) with
  | .ok () => return
  | .error _ => Action.giveUp

/-- Writes a text to standard error. A process that cannot do so gives up, but a standard error that
is closed takes everything. -/
def warn (text : String) : Action Unit := do
  match ← Action.writeAll standardError text.toUTF8 with
  | .ok () => return
  | .error errno => if errno = .badDescriptor then return else Action.giveUp

def errorText (console : Console) (message : String) : String :=
  console.styled .boldRed "pipesh:" ++ " " ++ message ++ "\n"

def debugText (console : Console) (message : String) : String :=
  console.styled .dimmed "DEBUG:" ++ " " ++ message ++ "\n"

def error (console : Console) (message : String) : Action Unit :=
  warn (console.errorText message)

def log (console : Console) (message : String) : Action Unit :=
  if console.debug then warn (console.debugText message) else return

end Console

def Errno.text (errno : Errno) : String := errno.symbol ++ ": " ++ errno.description

end PipelineShell
