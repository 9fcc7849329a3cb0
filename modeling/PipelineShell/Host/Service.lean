import PipelineShell.Host.Execution
import PipelineShell.Host.Files

namespace PipelineShell.Host

/-! ## Descriptors -/

def newPipe (host : Host) (process : Process) :
    Except Errno (Host × (Descriptor × Descriptor)) := do
  if !process.hasRoom 0 then throw .tooManyOpen
  let id := host.pipes.size
  let host := { host with pipes := host.pipes.push {} }
  let (host, readEnd) := host.install process { resource := .pipe id, mode := { read := true } }
  let process := (host.process? process.pid).getD process
  if !process.hasRoom 0 then throw .tooManyOpen
  let (host, writeEnd) := host.install process { resource := .pipe id, mode := { write := true } }
  return (host, readEnd, writeEnd)

def duplicateTo (host : Host) (process : Process) (source target : Descriptor) :
    Except Errno (Host × Unit) :=
  match process.descriptor? source with
  | none => .error .badDescriptor
  | some entry =>
    if source = target then .ok (host, ())
    else if process.descriptorLimit ≤ target then .error .badDescriptor
    else .ok (host.modifyProcess process.pid (·.setDescriptor ⟨target, entry.file, false⟩), ())

def duplicateFrom (host : Host) (process : Process) (source least : Descriptor) :
    Except Errno (Host × Descriptor) :=
  match process.descriptor? source with
  | none => .error .badDescriptor
  | some entry =>
    let number := process.freeDescriptor least
    if process.descriptorLimit ≤ least then .error .invalid
    else if !process.hasRoom least then .error .tooManyOpen
    else .ok (host.modifyProcess process.pid (·.setDescriptor ⟨number, entry.file, true⟩), number)

def closeDescriptor (host : Host) (process : Process) (number : Descriptor) :
    Except Errno (Host × Unit) :=
  if (process.descriptor? number).isSome then
    .ok (host.modifyProcess process.pid (·.removeDescriptor number), ())
  else .error .badDescriptor

/-! ## Children and signals -/

def collect (host : Host) (child : Process) : Host :=
  { host with processes := host.processes.filter (·.pid != child.pid) }

def selectChildren (host : Host) (process : Process) (pid : Pid) : Except Errno (List Process) :=
  if pid = -2147483648 then .error .noProcess
  else
    let all := host.children process.pid
    let selected := if pid = 0 || pid = -1 then all else all.filter (·.pid == pid)
    if selected.isEmpty then .error .noChild else .ok selected

def reportOf (child : Process) : Option ChildReport :=
  match child.life with
  | .ended report => some report
  | .running _ => none

def waitFor (host : Host) (process : Process) (pid : Pid) (mode : WaitMode) :
    Host × Served (Except Errno ChildReport) :=
  match selectChildren host process pid with
  | .error errno => (host, .reply (.error errno))
  | .ok selected =>
    match selected.findSome? fun child => (reportOf child).map fun report => (child, report) with
    | some (child, report) =>
      (if mode = .observe then host else collect host child, .reply (.ok report))
    | none => if mode = .poll then (host, .reply (.ok .running)) else (host, .blocked)

def highestSignal : Nat := 64

def send (host : Host) (process : Process) (pid : Pid) (number : Nat) :
    Host × Served (Except Errno Unit) :=
  if highestSignal < number then (host, .reply (.error .invalid))
  else
    let targets :=
      if pid = 0 then host.processes.map (·.pid)
      else (host.process? pid).toList.map (·.pid)
    if targets.isEmpty && pid ≠ initialPid then (host, .reply (.error .noProcess))
    else
      let host := targets.foldl (·.signal · number) host
      if ((host.process? process.pid).any (·.isRunning)) then (host, .reply (.ok ()))
      else (host, .over)

def setSignal (host : Host) (process : Process) (number : Nat) (ignored : Bool) :
    Except Errno (Host × Unit) :=
  if number = 0 || highestSignal < number || number = 9 || number = 19 then .error .invalid
  else
    .ok (host.modifyProcess process.pid fun p =>
      let others := p.ignored.filter (· != number)
      { p with ignored := if ignored then number :: others else others }, ())

def limitDescriptors (host : Host) (pid : Pid) (limit : Nat) : Except Errno (Host × Unit) :=
  match host.process? pid with
  | none => .error .noProcess
  | some _ => .ok (host.modifyProcess pid fun p => { p with descriptorLimit := limit }, ())

def sleepFor (host : Host) (process : Process) (nanoseconds : Nat) :
    Host × Served (Except Errno Unit) :=
  let setWake (host : Host) (time : Option Nat) : Host :=
    host.modifyProcess process.pid fun p => { p with wakeAt := time }
  match process.wakeAt with
  | some time =>
    if time ≤ host.clock then (setWake host none, .reply (.ok ())) else (host, .blocked)
  | none =>
    if nanoseconds = 0 then (host, .reply (.ok ()))
    else (setWake host (some (host.clock + nanoseconds)), .blocked)

/-! ## Calls -/

def execImage (host : Host) (process : Process) : Except Errno Image → Host × Served Errno
  | .ok image => (become host process image, .over)
  | .error errno => (host, .reply errno)

def withFile {α : Type} (host : Host) (process : Process) (number : Descriptor)
    (f : Nat → OpenFile → Host × Served (Except Errno α)) : Host × Served (Except Errno α) :=
  match host.openFile? process number with
  | some (index, file) => f index file
  | none => (host, .reply (.error .badDescriptor))

def serve (host : Host) (process : Process) :
    (request : Call) → Host × Served request.Reply
  | .openFile path mode => answer host (openPath host process path mode)
  | .pipe => answer host (newPipe host process)
  | .fork => (host, .blocked)
  | .duplicateTo source target => answer host (duplicateTo host process source target)
  | .duplicateFrom source least => answer host (duplicateFrom host process source least)
  | .close number => answer host (closeDescriptor host process number)
  | .exec program arguments =>
    execImage host process (findProgram host process program arguments)
  | .execFile path arguments =>
    execImage host process (load host process path arguments interpreterLimit)
  | .wait pid mode => waitFor host process pid mode
  | .read number count =>
    withFile host process number fun index file => readFrom host index file count
  | .write number data =>
    countWritten process <|
      withFile host process number fun index file => writeTo host process index file data
  | .print text => printText host process text
  | .flush => (host, .reply (.ok ()))
  | .seek number offset origin =>
    withFile host process number fun index file =>
      answer host (seekIn host index file offset origin)
  | .setSignal number ignored => answer host (setSignal host process number ignored)
  | .kill pid number => send host process pid number
  | .exit code => (host.endProcess process.pid (.exited (code % 256)), .over)
  | .die number => (host.endProcess process.pid (.killed number), .over)
  | .pause => (host, .blocked)
  | .sleep nanoseconds => sleepFor host process nanoseconds
  | .clock => (host, .reply host.clock)
  | .processIds => (host, .reply ⟨process.pid, process.parent⟩)
  | .isTerminal number =>
    match host.openFile? process number with
    | some (_, { resource := .terminal, .. }) => (host, .reply (.ok true))
    | some _ => (host, .reply (.ok false))
    | none => (host, .reply (.error .badDescriptor))
  | .currentDirectory =>
    match host.tree.absolutePath? process.directory with
    | some path => (host, .reply (.ok path))
    | none => (host, .reply (.error .noEntry))
  | .changeDirectory path => answer host (changeDirectory host process path)
  | .setEnvironment environment =>
    (host.modifyProcess process.pid fun p => { p with environment }, .reply (.ok ()))
  | .setMask mask =>
    (host.modifyProcess process.pid fun p => { p with mask := mask &&& 0o777 },
      .reply process.mask)
  | .limitDescriptors pid limit => answer host (limitDescriptors host pid limit)
  | .fileInfo path follow => (host, .reply (infoOf host process path follow))
  | .descriptorInfo number =>
    match host.openFile? process number with
    | some (index, file) => (host, .reply (resourceInfo host index file.resource))
    | none => (host, .reply (.error .badDescriptor))
  | .canAccess path read write execute =>
    (host, .reply (checkAccess host process path read write execute))
  | .listDirectory path => (host, .reply (namesIn host process path))
  | .readLink path => (host, .reply (targetOf host process path))
  | .removeFile path => answer host (unlink host process path)
  | .removeDirectory path => answer host (removeDirectory host process path)
  | .makeDirectory path permissions => answer host (makeDirectory host process path permissions)
  | .makeLink target path => answer host (makeLink host process target path)
  | .addName target path => answer host (addName host process target path)
  | .rename source target => answer host (rename host process source target)
  | .setPermissions path permissions =>
    answer host (setPermissions host process path permissions)

end PipelineShell.Host
