import PipelineShell.Signal

/-!
# System calls

What a program may ask of the system, and the type of the reply to each request. Texts that name
files, programs and variables are Unicode text; data are bytes.
-/

namespace PipelineShell

abbrev Descriptor := Nat

def standardInput : Descriptor := 0
def standardOutput : Descriptor := 1
def standardError : Descriptor := 2

abbrev Environment := List (String × String)

/-- How a file is opened. Every descriptor that an opening gives is closed by the next `exec`. -/
structure OpenMode where
  read : Bool := false
  write : Bool := false
  create : Bool := false
  truncate : Bool := false
  append : Bool := false
  permissions : Nat := 0o666
deriving Repr, DecidableEq

inductive Forked
  | child
  | parent (pid : Int)
deriving Repr, DecidableEq

/-- Whether a wait blocks and whether it collects the child. -/
inductive WaitMode
  | block
  | poll
  | observe
deriving Repr, DecidableEq

inductive FileKind
  | regular
  | directory
  | link
  | device
  | pipe
  | terminal
deriving Repr, DecidableEq

structure FileInfo where
  kind : FileKind
  permissions : Nat
  size : Nat
  /-- Two names with one identity are names of one file. -/
  identity : Nat
deriving Repr, DecidableEq

structure ProcessIds where
  own : Int
  parent : Int

inductive Origin
  | start
  | current
  | finish
deriving Repr, DecidableEq

inductive Call
  | openFile (path : String) (mode : OpenMode)
  /-- The read end first. -/
  | pipe
  | fork
  | duplicateTo (source target : Descriptor)
  /-- Duplicates to the first free descriptor from `least` on; `exec` closes it. -/
  | duplicateFrom (source least : Descriptor)
  | close (descriptor : Descriptor)
  /-- Looks the program up and replaces the process image. There is a reply only if that fails. -/
  | exec (program : String) (arguments : List String)
  /-- Replaces the process image by the file at a path, without a search. -/
  | execFile (path : String) (arguments : List String)
  | wait (pid : Int) (mode : WaitMode)
  | read (descriptor : Descriptor) (count : Nat)
  | write (descriptor : Descriptor) (data : ByteArray)
  /-- Hands a text over to the buffer of standard output. The reply is an error if something of what
  the buffer holds had to be written and could not be. -/
  | print (text : String)
  | flush
  | seek (descriptor : Descriptor) (offset : Int) (origin : Origin)
  | setSignal (signal : Nat) (ignored : Bool)
  | kill (pid : Int) (signal : Nat)
  | exit (code : Nat)
  /-- Ends the process by a signal whose default action that is. -/
  | die (signal : Nat)
  | pause
  | sleep (nanoseconds : Nat)
  | clock
  | processIds
  | isTerminal (descriptor : Descriptor)
  | currentDirectory
  | changeDirectory (path : String)
  | setEnvironment (environment : Environment)
  | setMask (mask : Nat)
  /-- Lets a process have descriptors only below `limit`, and its children too. -/
  | limitDescriptors (pid : Int) (limit : Nat)
  | fileInfo (path : String) (followLinks : Bool)
  | descriptorInfo (descriptor : Descriptor)
  | canAccess (path : String) (read write execute : Bool)
  | listDirectory (path : String)
  | readLink (path : String)
  | removeFile (path : String)
  | removeDirectory (path : String)
  | makeDirectory (path : String) (permissions : Nat)
  | makeLink (target path : String)
  | addName (target path : String)
  | rename (source target : String)
  | setPermissions (path : String) (permissions : Nat)

namespace Call

abbrev Reply : Call → Type
  | openFile .. => Except Errno Descriptor
  | pipe => Except Errno (Descriptor × Descriptor)
  | fork => Except Errno Forked
  | duplicateTo .. => Except Errno Unit
  | duplicateFrom .. => Except Errno Descriptor
  | close _ => Except Errno Unit
  | exec .. => Errno
  | execFile .. => Errno
  | wait .. => Except Errno ChildReport
  | read .. => Except Errno ByteArray
  | write .. => Except Errno Nat
  | print _ => Except FileError Unit
  | flush => Except FileError Unit
  | seek .. => Except Errno Nat
  | setSignal .. => Except Errno Unit
  | kill .. => Except Errno Unit
  | exit _ => Empty
  | die _ => Empty
  | pause => Empty
  | sleep _ => Except Errno Unit
  | clock => Nat
  | processIds => ProcessIds
  | isTerminal _ => Except Errno Bool
  | currentDirectory => Except Errno String
  | changeDirectory _ => Except Errno Unit
  | setEnvironment _ => Except Errno Unit
  | setMask _ => Nat
  | limitDescriptors .. => Except Errno Unit
  | fileInfo .. => Except Errno FileInfo
  | descriptorInfo _ => Except Errno FileInfo
  | canAccess .. => Except Errno Unit
  | listDirectory _ => Except Errno (List String)
  | readLink _ => Except Errno String
  | removeFile _ => Except Errno Unit
  | removeDirectory _ => Except Errno Unit
  | makeDirectory .. => Except Errno Unit
  | makeLink .. => Except Errno Unit
  | addName .. => Except Errno Unit
  | rename .. => Except Errno Unit
  | setPermissions .. => Except Errno Unit

end Call

end PipelineShell
