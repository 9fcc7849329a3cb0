import PipelineShell.Host.Schedule
import PipelineShell.Host.Terminal

/-!
# Setting a host up

A host starts with the usual directories and devices, its installed programs, some files in a
working directory and one process, which reads from a pipe or a terminal and writes to the two
outlets.
-/

namespace PipelineShell.Host

inductive Feed
  | pipe (data : ByteArray)
  | terminal (typed : List UInt8)

structure Setup where
  programs : List (String × Program)
  directory : List String
  files : List (String × Entry)
  feed : Feed
  environment : Environment
  mask : Nat

namespace Setup

def descend (tree : FileTree) (id : NodeId) : List String → FileTree × NodeId
  | [] => (tree, id)
  | name :: rest =>
    match tree.lookup id name with
    | some next => descend tree next rest
    | none =>
      let (tree, next) := tree.createDirectory id name 0o755
      descend tree next rest

def nodeOf (parent : NodeId) : Entry → Node
  | .file data permissions => ⟨.file data, permissions⟩
  | .directory => ⟨.directory [] parent, 0o755⟩
  | .link target => ⟨.link target, 0o777⟩

def addEntry (tree : FileTree) (base : NodeId) (path : String) (entry : Entry) : FileTree :=
  let names := pathNames path
  match entry with
  | .directory => (descend tree base names).1
  | _ =>
    let (tree, parent) := descend tree base names.dropLast
    (tree.create parent (names.getLast?.getD "") (nodeOf parent entry)).1

def devices : List (String × Content) := [
  ("null", .device .null), ("zero", .device .zero), ("full", .device .full),
  ("fd", .link "/proc/self/fd"), ("stdin", .link "/proc/self/fd/0"),
  ("stdout", .link "/proc/self/fd/1"), ("stderr", .link "/proc/self/fd/2")]

def systemTree (programs : List String) : FileTree :=
  let (tree, _) := FileTree.empty.createDirectory FileTree.rootId "proc" 0o555
  let (tree, dev) := descend tree FileTree.rootId ["dev"]
  let tree := devices.foldl (fun tree (name, content) =>
    (tree.create dev name ⟨content, 0o666⟩).1) tree
  let (tree, bin) := descend tree FileTree.rootId ["usr", "bin"]
  let tree := programs.foldl (fun tree name =>
    (tree.create bin name ⟨.program name, 0o755⟩).1) tree
  let (tree, _) := descend tree FileTree.rootId ["usr", "local", "bin"]
  let (tree, _) := descend tree FileTree.rootId ["tmp"]
  (tree.create FileTree.rootId "bin" ⟨.link "usr/bin", 0o777⟩).1

def firstPid : Pid := 3
def outsidePid : Pid := 2

def ignoredAtStart : List Nat := [13]

def standardFiles (feed : Feed) : List OpenFile := [
  match feed with
  | .pipe _ => { resource := .pipe 0, mode := { read := true } }
  | .terminal _ => { resource := .terminal, mode := { read := true, write := true } },
  { resource := .outlet 1, mode := { write := true } },
  { resource := .outlet 2, mode := { write := true } }]

def standardDescriptors : List DescriptorEntry := [⟨0, 0, false⟩, ⟨1, 1, false⟩, ⟨2, 2, false⟩]

def start (setup : Setup) : Host :=
  let (tree, directory) :=
    descend (systemTree (setup.programs.map (·.1))) FileTree.rootId setup.directory
  let tree := setup.files.foldl (fun tree (path, entry) => addEntry tree directory path entry) tree
  let first : Process := {
    pid := firstPid, parent := outsidePid, life := .running .exhausted
    descriptors := standardDescriptors, directory, environment := setup.environment
    mask := setup.mask, ignored := ignoredAtStart, command := "pipesh" }
  { tree, processes := [first], openFiles := (standardFiles setup.feed).toArray
    pipes := match setup.feed with
      | .pipe data => #[{ buffer := data }]
      | .terminal _ => #[]
    typed := match setup.feed with
      | .pipe _ => []
      | .terminal typed => Terminal.pieces typed
    nextPid := firstPid + 1
    programs := fun name => setup.programs.lookup name }

def directoryId (setup : Setup) : NodeId :=
  (descend (systemTree (setup.programs.map (·.1))) FileTree.rootId setup.directory).2

end Setup

def outcome? (host : Host) : Option ChildReport :=
  (host.process? Setup.firstPid).bind fun process =>
    match process.life with
    | .ended report => some report
    | .running _ => none

end PipelineShell.Host
