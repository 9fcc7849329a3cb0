import PipelineShell.System.Call

/-!
# The file tree

Files, directories, links, devices and installed programs, held in a table of nodes. A node keeps
its number for good, so a directory that has been removed may still be the current directory of a
process.
-/

namespace PipelineShell.Host

abbrev NodeId := Nat

inductive Device
  | null
  | zero
  | full
deriving Repr, DecidableEq

inductive Content
  | file (data : ByteArray)
  | directory (entries : List (String × NodeId)) (parent : NodeId)
  | link (target : String)
  | device (device : Device)
  | program (name : String)

structure Node where
  content : Content
  permissions : Nat

structure FileTree where
  nodes : Array Node

namespace FileTree

def rootId : NodeId := 0

def empty : FileTree := ⟨#[⟨.directory [] rootId, 0o755⟩]⟩

def get? (tree : FileTree) (id : NodeId) : Option Node := tree.nodes[id]?

def modify (tree : FileTree) (id : NodeId) (f : Node → Node) : FileTree :=
  ⟨tree.nodes.modify id f⟩

def entries (tree : FileTree) (id : NodeId) : List (String × NodeId) :=
  match tree.get? id with
  | some ⟨.directory entries _, _⟩ => entries
  | _ => []

def parent (tree : FileTree) (id : NodeId) : NodeId :=
  match tree.get? id with
  | some ⟨.directory _ parent, _⟩ => parent
  | _ => rootId

def isDirectory (tree : FileTree) (id : NodeId) : Bool :=
  match tree.get? id with
  | some ⟨.directory .., _⟩ => true
  | _ => false

def lookup (tree : FileTree) (directory : NodeId) (name : String) : Option NodeId :=
  (tree.entries directory).lookup name

def modifyEntries (tree : FileTree) (directory : NodeId)
    (f : List (String × NodeId) → List (String × NodeId)) : FileTree :=
  tree.modify directory fun node =>
    match node.content with
    | .directory entries parent => { node with content := .directory (f entries) parent }
    | _ => node

def addName (tree : FileTree) (directory : NodeId) (name : String) (id : NodeId) : FileTree :=
  tree.modifyEntries directory fun entries => entries.filter (·.1 != name) ++ [(name, id)]

def removeName (tree : FileTree) (directory : NodeId) (name : String) : FileTree :=
  tree.modifyEntries directory fun entries => entries.filter (·.1 != name)

def create (tree : FileTree) (directory : NodeId) (name : String) (node : Node) :
    FileTree × NodeId :=
  let id := tree.nodes.size
  (addName ⟨tree.nodes.push node⟩ directory name id, id)

def createDirectory (tree : FileTree) (directory : NodeId) (name : String)
    (permissions : Nat) : FileTree × NodeId :=
  tree.create directory name ⟨.directory [] directory, permissions⟩

def pathNames (tree : FileTree) : Nat → NodeId → List String → Option (List String)
  | 0, _, _ => none
  | depth + 1, id, below =>
    if id = rootId then some below
    else
      let parent := tree.parent id
      match (tree.entries parent).find? (·.2 == id) with
      | some (name, _) => pathNames tree depth parent (name :: below)
      | none => none

def absolutePath? (tree : FileTree) (id : NodeId) : Option String :=
  (tree.pathNames (tree.nodes.size + 1) id []).map fun names => "/" ++ "/".intercalate names

def identityInfo (id : NodeId) (node : Node) : FileInfo :=
  let (kind, size) := match node.content with
    | .file data => (FileKind.regular, data.size)
    | .directory .. => (.directory, 4096)
    | .link target => (.link, target.utf8ByteSize)
    | .device _ => (.device, 0)
    | .program _ => (.regular, 16384)
  { kind, permissions := node.permissions, size, identity := id }

def writeAt (data : ByteArray) (offset : Nat) (new : ByteArray) : ByteArray :=
  let padded :=
    if data.size < offset then data ++ ⟨Array.replicate (offset - data.size) 0⟩ else data
  new.copySlice 0 padded offset new.size

def fileData (tree : FileTree) (id : NodeId) : ByteArray :=
  match tree.get? id with
  | some ⟨.file data, _⟩ => data
  | _ => ByteArray.empty

def modifyData (tree : FileTree) (id : NodeId) (f : ByteArray → ByteArray) : FileTree :=
  tree.modify id fun node =>
    match node with
    | ⟨.file data, permissions⟩ => ⟨.file (f data), permissions⟩
    | other => other

def mayRead (permissions : Nat) : Bool := permissions &&& 0o400 != 0
def mayWrite (permissions : Nat) : Bool := permissions &&& 0o200 != 0
def mayExecute (permissions : Nat) : Bool := permissions &&& 0o100 != 0

end FileTree

inductive Entry
  | file (data : ByteArray) (permissions : Nat)
  | directory
  | link (target : String)

namespace FileTree

/-- Everything below a directory by relative path, in no particular order, or `none` if something
there may not be read. -/
def below? (tree : FileTree) : Nat → NodeId → String → Option (List (String × Entry))
  | 0, _, _ => some []
  | depth + 1, directory, leading =>
    (tree.entries directory).foldl (fun found (name, id) => do
      let found ← found
      let path := leading ++ name
      let node ← tree.get? id
      match node.content with
      | .directory .. =>
        guard (mayRead node.permissions && mayExecute node.permissions)
        let inner ← below? tree depth id (path ++ "/")
        return (path, .directory) :: inner ++ found
      | .link target => return (path, .link target) :: found
      | .file data =>
        guard (mayRead node.permissions)
        return (path, .file data node.permissions) :: found
      | .device _ | .program _ => return (path, .file ByteArray.empty node.permissions) :: found)
      (some [])

end FileTree

end PipelineShell.Host
