import PipelineShell.Application.Hosted
import PipelineShell.Programs

namespace PipelineShell.Main

def variableNames : List String :=
  ["PATH", "HOME", "CLICOLOR_FORCE", "PIPESH_DEBUG"]

def environment : List String → IO Environment
  | [] => return []
  | name :: rest => do
    let others ← environment rest
    match ← IO.getEnv name with
    | some value => return (name, value) :: others
    | none => return others

partial def readToEnd (input : IO.FS.Stream) (read : ByteArray) : IO ByteArray := do
  let more ← input.read 65536
  if more.isEmpty then return read else readToEnd input (read ++ more)

def exitStatus : Option ChildReport → UInt32
  | some (.exited code) => code.toUInt32
  | some (.killed signal) => (128 + signal).toUInt32
  | _ => 1

end PipelineShell.Main

open PipelineShell in
def main (arguments : List String) : IO UInt32 := do
  let input ← Main.readToEnd (← IO.getStdin) ByteArray.empty
  let environment ← Main.environment Main.variableNames
  let setup : Host.Setup := {
    programs := Programs.installed, directory := ["work"], files := [], feed := .pipe input
    environment, mask := 0o022 }
  let host := Application.runOn setup (arguments.map (·.toUTF8.toList)) Utility.userName
  (← IO.getStdout).write host.output
  (← IO.getStderr).write host.errors
  return Main.exitStatus host.outcome?
