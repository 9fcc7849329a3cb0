import PipelineShell.Host.State

/-!
# Paths

A path leads to a node of the file tree or to an entry of the process directory, which is made up
from the processes. Links are followed on the way, at most forty in one path.
-/

namespace PipelineShell.Host

inductive Place
  | node (id : NodeId)
  | processes
  | process (pid : Pid)
  | status (pid : Pid)
  | traffic (pid : Pid)
  | descriptors (pid : Pid)
  | descriptor (pid : Pid) (number : Descriptor)
deriving DecidableEq

def linkLimit : Nat := 40
def nameLimit : Nat := 255
def pathLimit : Nat := 4096

def processesId : NodeId := 1

def placeOf (id : NodeId) : Place := if id = processesId then .processes else .node id

def child (host : Host) (self : Pid) (place : Place) (name : String) : Except Errno Place :=
  match place with
  | .node id =>
    match host.tree.get? id with
    | some ⟨.directory entries parent, permissions⟩ =>
      if !FileTree.mayExecute permissions then .error .accessDenied
      else if name = "." then .ok place
      else if name = ".." then .ok (placeOf parent)
      else if name.utf8ByteSize > nameLimit then .error .nameTooLong
      else match entries.lookup name with
        | some id => .ok (placeOf id)
        | none => .error .noEntry
    | _ => .error .notDirectory
  | .processes =>
    if name = "." then .ok place
    else if name = ".." then .ok (.node FileTree.rootId)
    else
      let pid : Pid := if name = "self" then self else ((name.toNat?).map (↑·)).getD 0
      if (host.process? pid).isSome then .ok (.process pid) else .error .noEntry
  | .process pid =>
    match name with
    | "." => .ok place
    | ".." => .ok .processes
    | "status" => .ok (.status pid)
    | "io" => .ok (.traffic pid)
    | "fd" => .ok (.descriptors pid)
    | _ => .error .noEntry
  | .descriptors pid =>
    match name with
    | "." => .ok place
    | ".." => .ok (.process pid)
    | _ =>
      match name.toNat?, host.process? pid with
      | some number, some process =>
        if (process.descriptor? number).isSome then .ok (.descriptor pid number)
        else .error .noEntry
      | _, _ => .error .noEntry
  | .status _ | .traffic _ | .descriptor .. => .error .notDirectory

def linkTarget? (host : Host) : Place → Option String
  | .node id =>
    match host.tree.get? id with
    | some ⟨.link target, _⟩ => some target
    | _ => none
  | _ => none

def isDirectoryPlace (host : Host) : Place → Bool
  | .node id => host.tree.isDirectory id
  | .processes | .process _ | .descriptors _ => true
  | .status _ | .traffic _ | .descriptor .. => false

def pathNames (path : String) : List String :=
  ((path.splitToList (· == '/')).filter (!·.isEmpty))

def startOf (path : String) (current : Place) : Place :=
  if path.startsWith "/" then .node FileTree.rootId else current

def walk (host : Host) (self : Pid) (followLast : Bool) (links : Nat) (place : Place)
    (names : List String) : Except Errno Place :=
  match names with
  | [] => .ok place
  | name :: rest =>
    match child host self place name with
    | .error errno => .error errno
    | .ok next =>
      match linkTarget? host next with
      | none => walk host self followLast links next rest
      | some target =>
        if rest.isEmpty && !followLast then .ok next
        else
          match links with
          | 0 => .error .tooManyLinks
          | links + 1 =>
            walk host self followLast links (startOf target place) (pathNames target ++ rest)
termination_by (links, names.length)

def resolve (host : Host) (process : Process) (path : String) (followLast : Bool) :
    Except Errno Place := do
  if path.isEmpty then throw .noEntry
  if path.utf8ByteSize ≥ pathLimit then throw .nameTooLong
  let slash := path.endsWith "/"
  let place ← walk host process.pid (followLast || slash) linkLimit
    (startOf path (.node process.directory)) (pathNames path)
  if slash && !isDirectoryPlace host place then throw .notDirectory
  return place

structure Position where
  directory : NodeId
  name : String

def resolveParent (host : Host) (process : Process) (path : String) : Except Errno Position := do
  if path.isEmpty then throw .noEntry
  if path.utf8ByteSize ≥ pathLimit then throw .nameTooLong
  let names := pathNames path
  match names.getLast? with
  | none => throw .alreadyExists
  | some name =>
    match ← walk host process.pid true linkLimit (startOf path (.node process.directory))
      names.dropLast with
    | .node id =>
      if !host.tree.isDirectory id then throw .notDirectory
      if name.utf8ByteSize > nameLimit then throw .nameTooLong
      return ⟨id, name⟩
    | _ => throw .notPermitted

def resolveNew (host : Host) (process : Process) (path : String) : Except Errno Position := do
  let position ← resolveParent host process path
  match host.tree.get? position.directory with
  | some node =>
    if !(FileTree.mayWrite node.permissions && FileTree.mayExecute node.permissions) then
      throw .accessDenied
    if (host.tree.absolutePath? position.directory).isNone then throw .noEntry
    return position
  | none => throw .noEntry

/-- Follows the links at the end of a path as long as they lead to names that do not exist, and
returns the directory and the name where the file is to be created. -/
def resolveCreation (host : Host) (process : Process) (path : String) :
    Nat → Except Errno Position
  | 0 => .error .tooManyLinks
  | links + 1 => do
    let position ← resolveNew host process path
    match host.tree.lookup position.directory position.name with
    | some id =>
      match host.tree.get? id with
      | some ⟨.link target, _⟩ =>
        let relative := { process with directory := position.directory }
        resolveCreation host relative target links
      | _ => return position
    | none => return position

def signalMask (signals : List Nat) : String :=
  let bits := signals.foldl (fun bits number => bits ||| (1 <<< (number - 1))) 0
  let digits := Nat.toDigits 16 bits
  String.ofList (List.replicate (16 - digits.length) '0' ++ digits)

def statusText (process : Process) (self : Pid) : String :=
  let state :=
    if !process.isRunning then "Z (zombie)"
    else if process.pid == self then "R (running)" else "S (sleeping)"
  "\n".intercalate [
    "Name:\t" ++ String.ofList (process.command.toList.take 15),
    "Umask:\t" ++ (let digits := Nat.toDigits 8 process.mask
      String.ofList (List.replicate (4 - digits.length) '0' ++ digits)),
    "State:\t" ++ state,
    "Tgid:\t" ++ toString process.pid,
    "Ngid:\t0",
    "Pid:\t" ++ toString process.pid,
    "PPid:\t" ++ toString process.parent,
    "TracerPid:\t0",
    "Uid:\t0\t0\t0\t0",
    "Gid:\t0\t0\t0\t0",
    "FDSize:\t64",
    "Threads:\t1",
    "SigPnd:\t0000000000000000",
    "ShdPnd:\t0000000000000000",
    "SigBlk:\t0000000000000000",
    "SigIgn:\t" ++ signalMask process.ignored,
    "SigCgt:\t0000000000000000",
    ""]

def trafficText (process : Process) : String :=
  "\n".intercalate [
    "rchar: 0",
    "wchar: " ++ toString process.written,
    "syscr: 0",
    "syscw: 0",
    "read_bytes: 0",
    "write_bytes: 0",
    "cancelled_write_bytes: 0",
    ""]

end PipelineShell.Host
