import PipelineShell.Host.Process

/-!
# The state of a host

A host has a file tree, processes, open files, pipes and a clock. It runs programs without any
machine below it: the same calls in the same order give the same replies.
-/

namespace PipelineShell

open Host in
structure Host where
  tree : FileTree
  processes : List Process := []
  openFiles : Array OpenFile := #[]
  pipes : Array Pipe := #[]
  clock : Nat := 0
  nextPid : Pid
  output : ByteArray := ByteArray.empty
  errors : ByteArray := ByteArray.empty
  typed : List ByteArray := []
  programs : String → Option Program

namespace Host

def initialPid : Pid := 1

def process? (host : Host) (pid : Pid) : Option Process :=
  host.processes.find? (·.pid == pid)

def modifyProcess (host : Host) (pid : Pid) (f : Process → Process) : Host :=
  { host with processes := host.processes.map fun p => if p.pid == pid then f p else p }

def children (host : Host) (pid : Pid) : List Process :=
  host.processes.filter (·.parent == pid)

def addOpenFile (host : Host) (file : OpenFile) : Host × Nat :=
  ({ host with openFiles := host.openFiles.push file }, host.openFiles.size)

def install (host : Host) (process : Process) (file : OpenFile) : Host × Descriptor :=
  let (host, index) := host.addOpenFile file
  let number := process.freeDescriptor 0
  (host.modifyProcess process.pid (·.setDescriptor ⟨number, index, true⟩), number)

def openFile? (host : Host) (process : Process) (number : Descriptor) :
    Option (Nat × OpenFile) := do
  let entry ← process.descriptor? number
  let file ← host.openFiles[entry.file]?
  return (entry.file, file)

def pipeEndOpen (host : Host) (id : Nat) (wanted : OpenMode → Bool) : Bool :=
  host.processes.any fun process =>
    process.descriptors.any fun entry =>
      match host.openFiles[entry.file]? with
      | some { resource := .pipe other, mode, .. } => other == id && wanted mode
      | _ => false

def hasReader (host : Host) (pipe : Nat) : Bool := host.pipeEndOpen pipe (·.read)
def hasWriter (host : Host) (pipe : Nat) : Bool := host.pipeEndOpen pipe (·.write)

def collectOrphans (host : Host) : Host :=
  { host with processes := host.processes.filter fun p => p.parent != initialPid || p.isRunning }

def endProcess (host : Host) (pid : Pid) (report : ChildReport) : Host :=
  let processes := host.processes.map fun p =>
    let p := if p.parent == pid then { p with parent := initialPid } else p
    if p.pid == pid then { p with life := .ended report, descriptors := [], wakeAt := none } else p
  collectOrphans { host with processes }

def harmless : List Nat := [0, 17, 18, 19, 20, 21, 22, 23, 28]

def signal (host : Host) (pid : Pid) (number : Nat) : Host :=
  match host.process? pid with
  | none => host
  | some process =>
    if !process.isRunning || harmless.contains number ||
      (process.ignored.contains number && number != 9) then host
    else host.endProcess pid (.killed number)

def forkProcess (host : Host) (parent : Process) (program : Action Nat) : Host × Pid :=
  let pid := host.nextPid
  let child := { parent with
    pid, parent := parent.pid, life := .running program, wakeAt := none, written := 0 }
  ({ host with processes := host.processes ++ [child], nextPid := pid + 1 }, pid)

end Host

end PipelineShell
