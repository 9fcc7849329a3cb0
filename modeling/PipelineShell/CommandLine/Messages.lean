import PipelineShell.CommandLine

/-!
# Messages about the command line

The help, the version and one text for each mistake, with the exit status that goes with it.
-/

namespace PipelineShell.CommandLine

def programName : String := "pipesh"

def programVersion : String := "0.1.0"

def usageLine (used : List OptionName) : String :=
  "Usage: " ++ programName ++ " " ++
    (if used.isEmpty then "[OPTIONS]" else " ".intercalate (used.map OptionName.usage))

def helpText (environment : Environment) : String :=
  programName ++ " - pipeline execution shell\n\n" ++ usageLine [] ++ "\n\nOptions:\n" ++
  "  -c, --command <LINE>  Run a single line and exit with its status\n" ++
  "      --sequential      Wait for each upstream stage to exit before starting the next\n" ++
  "  -d, --debug           Print debug diagnostics to stderr [env: " ++ debugVariable ++ "=" ++
  (environment.lookup debugVariable).getD "" ++ "]\n" ++
  "  -h, --help            Print help\n" ++
  "  -V, --version         Print version\n"

def versionText : String := programName ++ " " ++ programVersion ++ "\n"

namespace UsageError

def isMistake : UsageError → Bool
  | help | version => false
  | _ => true

def exitStatus (error : UsageError) : Nat := if error.isMistake then 2 else 0

def truthValues : List String := ["true", "false"]

def reason : UsageError → String
  | help | version => ""
  | unknownArgument text .. => "unexpected argument '" ++ text ++ "' found"
  | missingValue name =>
    "a value is required for '" ++ name.usage ++ "' but none was supplied"
  | repeatedOption name =>
    "the argument '" ++ name.usage ++ "' cannot be used multiple times"
  | unneededValue name value _ =>
    "unexpected value '" ++ value ++ "' for '" ++ name.usage ++
      "' found; no more were expected"
  | invalidVariable value =>
    (if value.isEmpty then "a value is required for '--debug' but none was supplied"
      else "invalid value '" ++ value ++ "' for '--debug'") ++
    "\n  [possible values: " ++ ", ".intercalate truthValues ++ "]"
  | invalidText => "invalid UTF-8 was detected in one or more arguments"

def tip : UsageError → String
  | unknownArgument _ (some name) _ =>
    "\n\n  tip: a similar argument exists: '--" ++ name.long ++ "'"
  | invalidVariable value =>
    match Similarity.closest? value.toList truthValues with
    | some candidate => "\n\n  tip: a similar value exists: '" ++ candidate ++ "'"
    | none => ""
  | _ => ""

def usage : UsageError → String
  | unknownArgument _ _ used | unneededValue _ _ used => "\n\n" ++ usageLine used
  | repeatedOption _ | invalidText => "\n\n" ++ usageLine []
  | _ => ""

def message (error : UsageError) (environment : Environment) : String :=
  match error with
  | help => helpText environment
  | version => versionText
  | _ =>
    "error: " ++ error.reason ++ error.tip ++ error.usage ++
      "\n\nFor more information, try '--help'.\n"

end UsageError

end PipelineShell.CommandLine
