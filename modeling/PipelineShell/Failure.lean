import PipelineShell.Signal
import PipelineShell.Token

/-!
# Why a statement fails

`RunError` says why a statement could not be run. It has one wording, and `RunError.errno` is the
number that stands for it where only a number can be passed on.
-/

namespace PipelineShell

inductive RunError
  | redirect (path : Word) (cause : FileError)
  | exec (program : Word) (errno : Errno)
  | killed (program : Word) (signal : Signal)
  | emptyStage
  | nul (position : Nat)
  | system (errno : Errno)
  | file (cause : FileError)
deriving Repr, DecidableEq

namespace RunError

def message : RunError → String
  | redirect path cause => path.toString ++ ": " ++ cause.message
  | exec program errno => program.toString ++ ": " ++ errno.description
  | killed program signal => program.toString ++ ": killed by " ++ signal.name
  | emptyStage => "empty command in pipeline"
  | nul position =>
    "argument contains a nul byte: nul byte found in provided data at position: " ++
      toString position
  | system errno => "system call failed: " ++ errno.symbol ++ ": " ++ errno.description
  | file cause => "IO error: " ++ cause.message

def errno : RunError → Errno
  | exec _ errno | system errno => errno
  | nul _ | emptyStage => .invalid
  | killed .. => .noChild
  | redirect _ cause | file cause => cause.errno

end RunError

end PipelineShell
