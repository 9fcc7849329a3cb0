import PipelineShell.Host.Path

/-!
# Files of a process

Opening, reading, writing and the calls that look at the file tree or change it. Each answers with
the reply and the host after it; reads and writes may also have to wait.
-/

namespace PipelineShell.Host

inductive Served (ρ : Type)
  | reply (value : ρ)
  | blocked
  | over

def answer {α : Type} (host : Host) : Except Errno (Host × α) → Host × Served (Except Errno α)
  | .ok (host, value) => (host, .reply (.ok value))
  | .error errno => (host, .reply (.error errno))

/-! ## Opening -/

def openNode (host : Host) (id : NodeId) (mode : OpenMode) : Except Errno (Host × OpenFile) := do
  let node ← (host.tree.get? id).elim (throw .noEntry) pure
  if mode.read && !FileTree.mayRead node.permissions then throw .accessDenied
  if mode.write && !FileTree.mayWrite node.permissions then throw .accessDenied
  match node.content with
  | .directory .. =>
    if mode.write || mode.create then throw .isDirectory
    return (host, { resource := .directory, mode })
  | .device device => return (host, { resource := .device device, mode })
  | .file _ =>
    let host :=
      if mode.truncate && mode.write then
        { host with tree := host.tree.modifyData id fun _ => ByteArray.empty }
      else host
    return (host, { resource := .node id, mode })
  | .program name => return (host, { resource := .text ("\x7fELF" ++ name).toUTF8, mode })
  | .link _ => throw .tooManyLinks

def reopen (host : Host) (pid : Pid) (number : Descriptor) (mode : OpenMode) :
    Except Errno (Host × OpenFile) := do
  let process ← (host.process? pid).elim (throw .noEntry) pure
  let (_, file) ← (host.openFile? process number).elim (throw .noEntry) pure
  match file.resource with
  | .node id => openNode host id mode
  | resource => return (host, { resource, mode })

def openPlace (host : Host) (self : Pid) (place : Place) (mode : OpenMode) :
    Except Errno (Host × OpenFile) := do
  match place with
  | .node id => openNode host id mode
  | .processes | .process _ | .descriptors _ =>
    if mode.write || mode.create then throw .isDirectory
    return (host, { resource := .directory, mode })
  | .status pid =>
    if mode.write then throw .accessDenied
    let process ← (host.process? pid).elim (throw .noProcess) pure
    return (host, { resource := .text (statusText process self).toUTF8, mode })
  | .traffic pid =>
    if mode.write then throw .accessDenied
    let process ← (host.process? pid).elim (throw .noProcess) pure
    return (host, { resource := .text (trafficText process).toUTF8, mode })
  | .descriptor pid number => reopen host pid number mode

def createFile (host : Host) (process : Process) (path : String) (mode : OpenMode) :
    Except Errno (Host × OpenFile) := do
  if path.endsWith "/" then throw .isDirectory
  let position ← resolveCreation host process path linkLimit
  let permissions := mode.permissions &&& (0o777 ^^^ (process.mask &&& 0o777))
  let (tree, id) :=
    host.tree.create position.directory position.name ⟨.file ByteArray.empty, permissions⟩
  return ({ host with tree }, { resource := .node id, mode })

def openPath (host : Host) (process : Process) (path : String) (mode : OpenMode) :
    Except Errno (Host × Descriptor) := do
  if !process.hasRoom 0 then throw .tooManyOpen
  let (host, file) ← match resolve host process path true with
    | .ok place => openPlace host process.pid place mode
    | .error errno =>
      if errno = .noEntry && mode.create && !path.isEmpty then
        createFile host process path mode
      else throw errno
  return host.install process file

/-! ## Reading and writing -/

def setOffset (host : Host) (index : Nat) (offset : Nat) : Host :=
  { host with openFiles := host.openFiles.modify index fun file => { file with offset } }

def modifyPipe (host : Host) (id : Nat) (f : Pipe → Pipe) : Host :=
  { host with pipes := host.pipes.modify id f }

def deviceChunk : Nat := 131072

def readFrom (host : Host) (index : Nat) (file : OpenFile) (count : Nat) :
    Host × Served (Except Errno ByteArray) :=
  if !file.mode.read then (host, .reply (.error .badDescriptor))
  else
    let fromData (data : ByteArray) : Host × Served (Except Errno ByteArray) :=
      let stop := min data.size (file.offset + count)
      let piece := data.extract file.offset stop
      (setOffset host index (file.offset + piece.size), .reply (.ok piece))
    match file.resource with
    | .node id => fromData (host.tree.fileData id)
    | .text data => fromData data
    | .directory => (host, .reply (.error .isDirectory))
    | .outlet _ => (host, .reply (.ok ByteArray.empty))
    | .device .null => (host, .reply (.ok ByteArray.empty))
    | .device _ => (host, .reply (.ok ⟨Array.replicate (min count deviceChunk) 0⟩))
    | .terminal =>
      match host.typed with
      | [] => (host, .blocked)
      | piece :: rest =>
        if piece.size ≤ count then ({ host with typed := rest }, .reply (.ok piece))
        else
          ({ host with typed := piece.extract count piece.size :: rest },
            .reply (.ok (piece.extract 0 count)))
    | .pipe id =>
      match host.pipes[id]? with
      | none => (host, .reply (.error .badDescriptor))
      | some pipe =>
        if pipe.unread = 0 then
          if host.hasWriter id then (host, .blocked) else (host, .reply (.ok ByteArray.empty))
        else
          let (data, pipe) := pipe.take count
          (modifyPipe host id fun _ => pipe, .reply (.ok data))

def breakPipe (host : Host) (process : Process) : Host × Served (Except Errno Nat) :=
  if process.ignored.contains 13 then (host, .reply (.error .brokenPipe))
  else (host.signal process.pid 13, .over)

def writePipe (host : Host) (process : Process) (id : Nat) (data : ByteArray) :
    Host × Served (Except Errno Nat) :=
  if !host.hasReader id then breakPipe host process
  else
    let unread := (host.pipes[id]?.map Pipe.unread).getD 0
    let space := Pipe.capacity - unread
    if data.size ≤ space then (modifyPipe host id (·.append data), .reply (.ok data.size))
    else if space = 0 || data.size ≤ Pipe.atomicSize then (host, .blocked)
    else (modifyPipe host id (·.append (data.extract 0 space)), .reply (.ok space))

def writeTo (host : Host) (process : Process) (index : Nat) (file : OpenFile)
    (data : ByteArray) : Host × Served (Except Errno Nat) :=
  if !file.mode.write then (host, .reply (.error .badDescriptor))
  else
    match file.resource with
    | .node id =>
      let offset := if file.mode.append then (host.tree.fileData id).size else file.offset
      let host :=
        { host with tree := host.tree.modifyData id (FileTree.writeAt · offset data) }
      (setOffset host index (offset + data.size), .reply (.ok data.size))
    | .outlet 1 => ({ host with output := host.output ++ data }, .reply (.ok data.size))
    | .outlet _ => ({ host with errors := host.errors ++ data }, .reply (.ok data.size))
    | .device .full => (host, .reply (.error .noSpace))
    | .device _ | .terminal => (host, .reply (.ok data.size))
    | .pipe id => writePipe host process id data
    | .text _ | .directory => (host, .reply (.error .badDescriptor))

def printIntoPipe (host : Host) (process : Process) (id : Nat) (data : ByteArray) :
    Host × Served (Except Errno Nat) :=
  let unread := (host.pipes[id]?.map Pipe.unread).getD 0
  if !host.hasReader id then breakPipe host process
  else if unread = 0 || unread + data.size ≤ Pipe.capacity then
    (modifyPipe host id (·.append data), .reply (.ok data.size))
  else (host, .blocked)

def countWritten (process : Process) :
    Host × Served (Except Errno Nat) → Host × Served (Except Errno Nat)
  | (host, .reply (.ok count)) =>
    (host.modifyProcess process.pid fun p => { p with written := p.written + count },
      .reply (.ok count))
  | served => served

def printText (host : Host) (process : Process) (text : String) :
    Host × Served (Except FileError Unit) :=
  match host.openFile? process standardOutput with
  | none => (host, .reply (.ok ()))
  | some (index, file) =>
    let (host, served) := countWritten process <| match file.resource with
      | .pipe id => printIntoPipe host process id text.toUTF8
      | _ => writeTo host process index file text.toUTF8
    match served with
    | .reply (.ok _) => (host, .reply (.ok ()))
    | .reply (.error errno) =>
      (host, .reply (if errno = .badDescriptor then .ok () else .error (.ofErrno errno)))
    | .blocked => (host, .blocked)
    | .over => (host, .over)

def seekIn (host : Host) (index : Nat) (file : OpenFile) (offset : Int) (origin : Origin) :
    Except Errno (Host × Nat) :=
  match file.resource with
  | .node id =>
    let base : Nat := match origin with
      | .start => 0
      | .current => file.offset
      | .finish => (host.tree.fileData id).size
    let position := (base : Int) + offset
    if position < 0 then .error .invalid
    else .ok (setOffset host index position.toNat, position.toNat)
  | .pipe _ | .outlet _ | .terminal => .error .noSeek
  | .device _ | .text _ | .directory => .ok (host, 0)

/-! ## Looking at files -/

def placeInfo (host : Host) : Place → Except Errno FileInfo
  | .node id =>
    match host.tree.get? id with
    | some node => .ok (FileTree.identityInfo id node)
    | none => .error .noEntry
  | .processes => .ok ⟨.directory, 0o555, 0, processesId⟩
  | .process pid => .ok ⟨.directory, 0o555, 0, 1000000 + pid.toNat * 1000⟩
  | .status pid => .ok ⟨.regular, 0o444, 0, 1000001 + pid.toNat * 1000⟩
  | .traffic pid => .ok ⟨.regular, 0o400, 0, 1000003 + pid.toNat * 1000⟩
  | .descriptors pid => .ok ⟨.directory, 0o500, 0, 1000002 + pid.toNat * 1000⟩
  | .descriptor pid number => .ok ⟨.link, 0o700, 64, 1000004 + pid.toNat * 1000 + number⟩

def resourceInfo (host : Host) (index : Nat) : Resource → Except Errno FileInfo
  | .node id => placeInfo host (.node id)
  | .pipe id => .ok ⟨.pipe, 0o600, 0, 2000000 + id⟩
  | .outlet number => .ok ⟨.pipe, 0o600, 0, 1900000 + number⟩
  | .terminal => .ok ⟨.terminal, 0o620, 0, 1800000⟩
  | .device _ => .ok ⟨.device, 0o666, 0, 1700000⟩
  | .text _ => .ok ⟨.regular, 0o444, 0, 3000000 + index⟩
  | .directory => .ok ⟨.directory, 0o755, 4096, 3000000 + index⟩

def infoOf (host : Host) (process : Process) (path : String) (follow : Bool) :
    Except Errno FileInfo := do
  match ← resolve host process path follow with
  | .descriptor pid number =>
    if follow then
      let owner ← (host.process? pid).elim (throw .noEntry) pure
      let (index, file) ← (host.openFile? owner number).elim (throw .noEntry) pure
      resourceInfo host index file.resource
    else placeInfo host (.descriptor pid number)
  | place => placeInfo host place

def checkAccess (host : Host) (process : Process) (path : String) (read write execute : Bool) :
    Except Errno Unit := do
  let info ← infoOf host process path true
  if read && !FileTree.mayRead info.permissions then throw .accessDenied
  if write && !FileTree.mayWrite info.permissions then throw .accessDenied
  if execute && !FileTree.mayExecute info.permissions then throw .accessDenied

def namesIn (host : Host) (process : Process) (path : String) : Except Errno (List String) := do
  match ← resolve host process path true with
  | .node id =>
    match host.tree.get? id with
    | some ⟨.directory entries _, permissions⟩ =>
      if !FileTree.mayRead permissions then throw .accessDenied
      return entries.map (·.1)
    | _ => throw .notDirectory
  | .processes => return "self" :: host.processes.map fun p => toString p.pid
  | .process _ => return ["fd", "io", "status"]
  | .descriptors pid =>
    return ((host.process? pid).map fun p => p.descriptors.map fun e => toString e.number).getD []
  | .status _ | .traffic _ | .descriptor .. => throw .notDirectory

def targetOf (host : Host) (process : Process) (path : String) : Except Errno String := do
  match ← resolve host process path false with
  | .node id =>
    match host.tree.get? id with
    | some ⟨.link target, _⟩ => return target
    | _ => throw .invalid
  | _ => throw .invalid

/-! ## Changing the file tree -/

def resolveRemoval (host : Host) (process : Process) (path : String) :
    Except Errno (Position × NodeId) := do
  let position ← resolveParent host process path
  let parent ← (host.tree.get? position.directory).elim (throw .noEntry) pure
  if !FileTree.mayExecute parent.permissions then throw .accessDenied
  let id ← (host.tree.lookup position.directory position.name).elim (throw .noEntry) pure
  if !FileTree.mayWrite parent.permissions then throw .accessDenied
  return (position, id)

def unlink (host : Host) (process : Process) (path : String) : Except Errno (Host × Unit) := do
  let names := pathNames path
  if names.getLast? = some "." || names.getLast? = some ".." then throw .isDirectory
  let (position, id) ← resolveRemoval host process path
  if host.tree.isDirectory id then throw .isDirectory
  if path.endsWith "/" then throw .notDirectory
  return ({ host with tree := host.tree.removeName position.directory position.name }, ())

def removeDirectory (host : Host) (process : Process) (path : String) :
    Except Errno (Host × Unit) := do
  let names := pathNames path
  if names.getLast? = some "." then throw .invalid
  if names.getLast? = some ".." then throw .notEmpty
  let (position, id) ← resolveRemoval host process path
  if !host.tree.isDirectory id then throw .notDirectory
  if !(host.tree.entries id).isEmpty then throw .notEmpty
  return ({ host with tree := host.tree.removeName position.directory position.name }, ())

def resolveFree (host : Host) (process : Process) (path : String) : Except Errno Position := do
  let position ← resolveParent host process path
  if (host.tree.lookup position.directory position.name).isSome then throw .alreadyExists
  if position.name = "." || position.name = ".." then throw .alreadyExists
  resolveNew host process path

def makeDirectory (host : Host) (process : Process) (path : String) (permissions : Nat) :
    Except Errno (Host × Unit) := do
  let position ← resolveFree host process path
  let permissions := permissions &&& (0o777 ^^^ (process.mask &&& 0o777))
  let (tree, _) := host.tree.createDirectory position.directory position.name permissions
  return ({ host with tree }, ())

def makeLink (host : Host) (process : Process) (target path : String) :
    Except Errno (Host × Unit) := do
  if target.isEmpty then throw .noEntry
  let position ← resolveFree host process path
  let (tree, _) := host.tree.create position.directory position.name ⟨.link target, 0o777⟩
  return ({ host with tree }, ())

def addName (host : Host) (process : Process) (target path : String) :
    Except Errno (Host × Unit) := do
  match ← resolve host process target false with
  | .node id =>
    let position ← resolveFree host process path
    if host.tree.isDirectory id then throw .notPermitted
    return ({ host with tree := host.tree.addName position.directory position.name id }, ())
  | _ => throw .notPermitted

def adopt (tree : FileTree) (id parent : NodeId) : FileTree :=
  tree.modify id fun node =>
    match node.content with
    | .directory entries _ => { node with content := .directory entries parent }
    | _ => node

def rename (host : Host) (process : Process) (source target : String) :
    Except Errno (Host × Unit) := do
  let (origin, id) ← resolveRemoval host process source
  let position ← resolveNew host process target
  let unchanged := host.tree.lookup position.directory position.name = some id
  if unchanged then return (host, ())
  if let some old := host.tree.lookup position.directory position.name then
    if host.tree.isDirectory old then
      if !host.tree.isDirectory id then throw .isDirectory
      if !(host.tree.entries old).isEmpty then throw .notEmpty
    else if host.tree.isDirectory id then throw .notDirectory
  let tree := host.tree.removeName origin.directory origin.name
  let tree := tree.addName position.directory position.name id
  return ({ host with tree := adopt tree id position.directory }, ())

def setPermissions (host : Host) (process : Process) (path : String) (permissions : Nat) :
    Except Errno (Host × Unit) := do
  match ← resolve host process path true with
  | .node id =>
    return ({ host with tree := host.tree.modify id fun node => { node with permissions } }, ())
  | _ => throw .notPermitted

def changeDirectory (host : Host) (process : Process) (path : String) :
    Except Errno (Host × Unit) := do
  match ← resolve host process path true with
  | .node id =>
    match host.tree.get? id with
    | some ⟨.directory .., permissions⟩ =>
      if !FileTree.mayExecute permissions then throw .accessDenied
      return (host.modifyProcess process.pid fun p => { p with directory := id }, ())
    | _ => throw .notDirectory
  | place => throw (if isDirectoryPlace host place then .accessDenied else .notDirectory)

end PipelineShell.Host
