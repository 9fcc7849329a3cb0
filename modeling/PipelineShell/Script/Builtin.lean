import PipelineShell.Script.Builtin.Directory
import PipelineShell.Script.Builtin.Lookup
import PipelineShell.Script.Builtin.Output
import PipelineShell.Script.Builtin.Read
import PipelineShell.Script.Builtin.Signals
import PipelineShell.Script.Builtin.Test
import PipelineShell.Script.Builtin.Variables

namespace PipelineShell.Script.Builtin

open Eval

def times : Builtin := fun _ =>
  writeOutput "times" "0m0.000000s 0m0.000000s\n0m0.000000s 0m0.000000s\n".toUTF8 0

def describeEach : Builtin := fun arguments => describeAll arguments 0

def plain : List (String × Builtin) := [
  (":", succeed), ("true", succeed), ("false", fail), ("echo", echo), ("printf", printf),
  ("test", test), ("[", bracket), ("exit", exit), ("return", leave), ("break", breakLoops),
  ("continue", continueLoop), ("export", exportNames), ("readonly", readOnly), ("unset", unset),
  ("local", makeLocal), ("shift", shift), ("set", setAll), ("getopts", getOptions),
  ("read", read), ("cd", changeDirectory), ("chdir", changeDirectory), ("pwd", printDirectory),
  ("umask", umask), ("wait", wait), ("trap", trap), ("times", times), ("hash", hash),
  ("ulimit", showLimit), ("alias", setAliases), ("unalias", removeAliases), ("jobs", jobs),
  ("fg", continueJob), ("bg", continueJob), ("type", describeEach)]

end PipelineShell.Script.Builtin
