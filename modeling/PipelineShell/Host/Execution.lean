import PipelineShell.Host.Path

/-!
# Starting programs

How the file at a path becomes the program of a process: an installed program, a script that names
its interpreter, or nothing. The search for a program without a slash goes through the directories
of `PATH`; a file that is no program is handed to the shell.
-/

namespace PipelineShell.Host

structure Image where
  program : Program
  invocation : Invocation
  command : String

def interpreterLimit : Nat := 5

def interpreterLineLimit : Nat := 255

def baseName (path : String) : String := (pathNames path).getLast?.getD path

def isSpaceByte (byte : UInt8) : Bool := byte == 0x20 || byte == 0x09

def interpreterLine? (data : ByteArray) : Option (String × Option String) :=
  match (data.extract 0 interpreterLineLimit).toList with
  | 0x23 :: 0x21 :: rest =>
    let line := ((rest.takeWhile (· != 0x0a)).reverse.dropWhile isSpaceByte).reverse
    let line := line.dropWhile isSpaceByte
    let text (bytes : List UInt8) : String := (String.fromUTF8? ⟨bytes.toArray⟩).getD ""
    let path := line.takeWhile fun byte => !isSpaceByte byte
    let argument := (line.dropWhile fun byte => !isSpaceByte byte).dropWhile isSpaceByte
    if path.isEmpty then none
    else some (text path, if argument.isEmpty then none else some (text argument))
  | _ => none

def argumentLimit : Nat := 131072

def argumentsTooLong (arguments : List String) (environment : Environment) : Bool :=
  arguments.any (fun argument => argumentLimit ≤ argument.utf8ByteSize) ||
    2000000 ≤ arguments.foldl (fun total text => total + (text.utf8ByteSize + 9)) 0 +
      environment.foldl (fun total (name, value) =>
        total + (name.utf8ByteSize + value.utf8ByteSize + 10)) 0

def load (host : Host) (process : Process) (path : String) (arguments : List String) :
    Nat → Except Errno Image
  | 0 => .error .tooManyLinks
  | depth + 1 => do
    let place ← resolve host process path true
    let node ← match place with
      | .node id => (host.tree.get? id).elim (throw .noEntry) pure
      | _ => throw .accessDenied
    if !FileTree.mayExecute node.permissions then throw .accessDenied
    match node.content with
    | .program name =>
      if argumentsTooLong arguments process.environment then throw .tooManyArguments
      match host.programs name with
      | some program =>
        let invocation : Invocation :=
          { name := arguments.headD "", arguments := arguments.tail
            environment := process.environment }
        return ⟨program, invocation, baseName path⟩
      | none => throw .noEntry
    | .file data =>
      match interpreterLine? data with
      | some (interpreter, argument) =>
        load host process interpreter
          (interpreter :: argument.toList ++ path :: arguments.tail) depth
      | none => throw .noExecutable
    | .directory .. | .device _ | .link _ => throw .accessDenied

def shellPath : String := "/bin/sh"

def loadOrShell (host : Host) (process : Process) (path : String) (arguments : List String) :
    Except Errno Image :=
  match load host process path arguments interpreterLimit with
  | .error errno =>
    if errno = .noExecutable then
      load host process shellPath (shellPath :: path :: arguments.tail) interpreterLimit
    else .error errno
  | image => image

def mayContinue (errno : Errno) : Bool :=
  errno = .noEntry || errno = .notDirectory || errno = .accessDenied

def search (host : Host) (process : Process) (program : String) (arguments : List String) :
    List String → Errno → Bool → Except Errno Image
  | [], last, denied => .error (if denied then .accessDenied else last)
  | directory :: rest, _, denied =>
    let path := if directory.isEmpty then program else directory ++ "/" ++ program
    match loadOrShell host process path arguments with
    | .ok image => .ok image
    | .error errno =>
      if mayContinue errno then
        search host process program arguments rest errno (denied || errno = .accessDenied)
      else .error errno

def defaultSearchPath : String := "/bin:/usr/bin"

def findProgram (host : Host) (process : Process) (program : String) (arguments : List String) :
    Except Errno Image :=
  if program.isEmpty then .error .noEntry
  else if program.contains '/' then loadOrShell host process program arguments
  else if nameLimit < program.utf8ByteSize then .error .nameTooLong
  else
    let path := (process.environment.lookup "PATH").getD defaultSearchPath
    search host process program arguments (path.splitToList (· == ':')) .noEntry false

def become (host : Host) (process : Process) (image : Image) : Host :=
  host.modifyProcess process.pid fun p =>
    { p.keepInherited with
      life := .running (image.program image.invocation), command := image.command }

end PipelineShell.Host
