import PipelineShell.Utility.Output

namespace PipelineShell.Utility

open PipelineShell.Action Host

def complainAccess (name path : String) (errno : Errno) : Action Unit :=
  complain name ("cannot access " ++ shellQuoted path ++ ": " ++ errorText errno)

/-! ## Listing -/

namespace Ls

structure Options where
  all : Bool
  almostAll : Bool
  asItself : Bool
  reverse : Bool
  classify : Bool
  slashes : Bool
  recursive : Bool
  commas : Bool

def sorted (options : Options) (names : List String) : List String :=
  let names := names.mergeSort fun a b => compare a.toUTF8.toList b.toUTF8.toList != .gt
  if options.reverse then names.reverse else names

def decorated (options : Options) (name : String) (info : Option FileInfo) : String :=
  match info with
  | some info =>
    let mark :=
      match info.kind with
      | .directory => if options.classify || options.slashes then "/" else ""
      | .link => if options.classify then "@" else ""
      | .pipe => if options.classify then "|" else ""
      | .regular =>
        if options.classify && info.permissions &&& 0o111 != 0 then "*" else ""
      | _ => ""
    name ++ mark
  | none => name

def decorateAll (options : Options) (directory : String) : List String → Action (List String)
  | [] => return []
  | name :: rest => do
    let info ←
      if options.classify || options.slashes then
        pure (← perform (.fileInfo (directory ++ name) false)).toOption
      else pure none
    let others ← decorateAll options directory rest
    return decorated options name info :: others

def lineLength : Nat := 80

def commaSeparated (position : Nat) : List String → String
  | [] => ""
  | name :: rest =>
    let stop := position + name.length
    name ++ match rest with
      | [] => ""
      | next :: _ =>
        if stop + next.length + 2 < lineLength then
          ", " ++ commaSeparated (stop + 2) rest
        else ",\n" ++ commaSeparated 0 rest

def writeNames (options : Options) (directory : String) (names : List String) : Action Unit := do
  let shown ← decorateAll options directory names
  if options.commas then
    if !shown.isEmpty then
      let _ ← putText (commaSeparated 0 shown ++ "\n")
  else
    let _ ← putText (String.join (shown.map (· ++ "\n")))

def shownNames (options : Options) (names : List String) : List String :=
  if options.all then names ++ [".", ".."]
  else if options.almostAll then names
  else names.filter fun name => !name.startsWith "."

def readNames (path : String) : Action (Except Errno (List String)) := do
  match ← perform (.openFile path { read := true }) with
  | .error errno => return .error errno
  | .ok descriptor =>
    let names ← perform (.listDirectory path)
    closeAll [descriptor]
    return names

def subdirectories (path : String) : List String → Action (List String)
  | [] => return []
  | name :: rest => do
    let full := path ++ "/" ++ name
    let info ← perform (.fileInfo full false)
    let others ← subdirectories path rest
    return if info.toOption.any (·.kind = .directory) then full :: others else others

def listDirectories (name : String) (options : Options) (titles : Bool) :
    Nat → Bool → Nat → List String → Action Nat
  | 0, _, status, _ => return status
  | _ + 1, _, status, [] => return status
  | bound + 1, isFirst, status, path :: rest => do
    match ← readNames path with
    | .error errno =>
      complain name ("cannot open directory " ++ shellQuoted path ++ ": " ++ errorText errno)
      listDirectories name options titles bound isFirst 2 rest
    | .ok names =>
      let names := sorted options (shownNames options names)
      if titles then
        let _ ← putText ((if isFirst then "" else "\n") ++ path ++ ":\n")
      writeNames options (path ++ "/") names
      let inner ←
        if options.recursive then
          subdirectories path (names.filter fun name => name ≠ "." && name ≠ "..")
        else pure []
      listDirectories name options titles bound false status (inner ++ rest)

def classifyOperands (name : String) (options : Options) :
    List String → Action (List String × List String × Nat)
  | [] => return ([], [], 0)
  | path :: rest => do
    let info ← perform (.fileInfo path (!options.asItself))
    let info ← match info with
      | .error _ => perform (.fileInfo path false)
      | found => pure found
    match info with
    | .error errno =>
      complainAccess name path errno
      let (files, directories, _) ← classifyOperands name options rest
      return (files, directories, 2)
    | .ok info =>
      let (files, directories, status) ← classifyOperands name options rest
      return if info.kind = .directory && !options.asItself then
          (files, path :: directories, status)
        else (path :: files, directories, status)

def table : OptionTable where
  flags := ['1', 'a', 'A', 'd', 'r', 'F', 'p', 'R', 'm', 'C', 'x', 'U', 'f', 'n', 'q', 'N', 'B',
    'h', 'S', 't']
  long := [("all", 'a'), ("almost-all", 'A'), ("directory", 'd'), ("reverse", 'r'),
    ("classify", 'F'), ("recursive", 'R')]

def run (invocation : Invocation) (parsed : Parsed) : Action Nat := do
  let options : Options := {
    all := parsed.has 'a', almostAll := parsed.has 'A', asItself := parsed.has 'd'
    reverse := parsed.has 'r', classify := parsed.has 'F', slashes := parsed.has 'p'
    recursive := parsed.has 'R', commas := parsed.has 'm' }
  let paths := if parsed.operands.isEmpty then ["."] else parsed.operands
  let (files, directories, status) ← classifyOperands invocation.name options paths
  let files := sorted options files
  if !files.isEmpty then writeNames options "" files
  let titles := 2 ≤ paths.length || options.recursive
  if !files.isEmpty && !directories.isEmpty then
    let _ ← putText "\n"
  let bound := if options.recursive then 100000 else directories.length + 1
  let listed ← listDirectories invocation.name options titles bound true 0
    (sorted options directories)
  return max status listed

end Ls

def ls : Program := fun invocation =>
  withOptions invocation Ls.table (Ls.run invocation) 2

/-! ## Parts of names -/

def withoutTrailingSlashes (path : String) : String :=
  let stripped := (path.toList.reverse.dropWhile (· = '/')).reverse
  if stripped.isEmpty && !path.isEmpty then "/" else String.ofList stripped

def lastName (path : String) : String :=
  let path := withoutTrailingSlashes path
  if path = "/" then "/"
  else String.ofList (path.toList.reverse.takeWhile (· ≠ '/')).reverse

def directoryName (path : String) : String :=
  let path := withoutTrailingSlashes path
  let before := (path.toList.reverse.dropWhile (· ≠ '/'))
  if before.isEmpty then if path = "/" then "/" else "."
  else withoutTrailingSlashes (String.ofList before.reverse)

def withoutSuffix (suffix name : String) : String :=
  if !suffix.isEmpty && name.endsWith suffix && name ≠ suffix then
    (name.dropEnd suffix.length).toString
  else name

def basename : Program := fun invocation =>
  withOptions invocation
    { flags := ['a', 'z'], values := ['s'], permutes := false
      long := [("multiple", 'a'), ("suffix", 's')] }
    fun parsed => do
      let many := parsed.has 'a' || parsed.has 's'
      let suffix := (parsed.value? 's').getD ""
      let write (suffix : String) (paths : List String) : Action Nat :=
        outputOr invocation.name
          (String.join (paths.map fun path => withoutSuffix suffix (lastName path) ++ "\n")).toUTF8
          0
      match parsed.operands with
      | [] =>
        complain invocation.name "missing operand"
        tryHelp invocation.name
        return 1
      | paths =>
        if many then write suffix paths
        else
          match paths with
          | _ :: _ :: extra :: _ =>
            complain invocation.name ("extra operand " ++ quoted extra)
            tryHelp invocation.name
            return 1
          | path :: rest => write (rest.headD "") [path]
          | [] => return 1

def dirname : Program := fun invocation =>
  withOptions invocation { flags := ['z'] } fun parsed => do
    if parsed.operands.isEmpty then
      complain invocation.name "missing operand"
      tryHelp invocation.name
      return 1
    outputOr invocation.name
      (String.join (parsed.operands.map fun path => directoryName path ++ "\n")).toUTF8 0

/-! ## Links and directories -/

def absoluteDirectory (path : String) : Action (Option String) := do
  match ← perform .currentDirectory, ← perform (.changeDirectory path) with
  | .ok before, .ok () =>
    let inside ← perform .currentDirectory
    let _ ← perform (.changeDirectory before)
    return inside.toOption
  | _, _ => return none

/-- The absolute path of a file, which need not exist in its directory. Follows at most `links`
links at its end. -/
def canonical (links : Nat) (path : String) : Action (Option String) := do
  match links with
  | 0 => return none
  | links + 1 =>
    if let some directory ← absoluteDirectory path then return some directory
    match ← perform (.readLink path) with
    | .ok target =>
      if target.startsWith "/" then canonical links target
      else canonical links (directoryName path ++ "/" ++ target)
    | .error _ =>
      return (← absoluteDirectory (directoryName path)).map fun base =>
        if base = "/" then "/" ++ lastName path else base ++ "/" ++ lastName path

def readlink : Program := fun invocation =>
  withOptions invocation
    { flags := ['f', 'e', 'm', 'n', 'q', 's', 'v', 'z']
      long := [("canonicalize", 'f'), ("no-newline", 'n')] }
    fun parsed => do
      match parsed.operands with
      | [] =>
        complain invocation.name "missing operand"
        tryHelp invocation.name
        return 1
      | paths => each invocation parsed 0 paths
where
  each (invocation : Invocation) (parsed : Parsed) (status : Nat) : List String → Action Nat
    | [] => return status
    | path :: rest => do
      let found ←
        if parsed.has 'f' || parsed.has 'e' || parsed.has 'm' then canonical 41 path
        else pure (← perform (.readLink path)).toOption
      match found with
      | some target =>
        let _ ← putText (target ++ if parsed.has 'n' then "" else "\n")
        each invocation parsed status rest
      | none => each invocation parsed 1 rest

def realpath : Program := fun invocation =>
  withOptions invocation
    { flags := ['e', 'm', 's', 'q', 'z', 'L', 'P'], long := [("canonicalize-existing", 'e'),
      ("canonicalize-missing", 'm'), ("no-symlinks", 's'), ("quiet", 'q')] }
    fun parsed => do
      if parsed.operands.isEmpty then
        complain invocation.name "missing operand"
        tryHelp invocation.name
        return 1
      each invocation.name parsed 0 parsed.operands
where
  each (name : String) (parsed : Parsed) (status : Nat) : List String → Action Nat
    | [] => return status
    | path :: rest => do
      let present ← perform (.fileInfo path true)
      let found ← canonical 41 path
      match present, found with
      | .error errno, some target =>
        if parsed.has 'e' || errno = .tooManyLinks || path.isEmpty then
          failed name parsed path errno rest
        else
          let _ ← putText (target ++ "\n")
          each name parsed status rest
      | .ok _, some target =>
        let _ ← putText (target ++ "\n")
        each name parsed status rest
      | .error errno, none => failed name parsed path errno rest
      | .ok _, none => failed name parsed path .noEntry rest
  failed (name : String) (parsed : Parsed) (path : String) (errno : Errno) (rest : List String) :
      Action Nat := do
    if !parsed.has 'q' then complainOf name path errno
    each name parsed 1 rest

def which : Program := fun invocation =>
  withOptions invocation { flags := ['a', 's'] } fun parsed => do
    let directories := ((invocation.environment.lookup "PATH").getD "").splitToList (· == ':')
    each parsed directories (if parsed.operands.isEmpty then 1 else 0) parsed.operands
where
  isProgram (path : String) : Action Bool := do
    match ← perform (.fileInfo path true) with
    | .error _ => return false
    | .ok info =>
      return info.kind = .regular &&
        (← perform (.canAccess path false false true)).toOption.isSome
  find : List String → Action (List String)
    | [] => return []
    | path :: rest => do
      let here ← isProgram path
      let more ← find rest
      return if here then path :: more else more
  each (parsed : Parsed) (directories : List String) (status : Nat) :
      List String → Action Nat
    | [] => return status
    | name :: rest => do
      let candidates :=
        if name.contains '/' then [name]
        else directories.map fun directory =>
          (if directory.isEmpty then "." else directory) ++ "/" ++ name
      let found ← find candidates
      let shown := if parsed.has 'a' then found else found.take 1
      if !parsed.has 's' then
        let _ ← putText (String.join (shown.map (· ++ "\n")))
      each parsed directories (if found.isEmpty then 1 else status) rest

def pwd : Program := fun invocation => do
  match ← perform .currentDirectory with
  | .ok path => outputOr invocation.name (path ++ "\n").toUTF8 0
  | .error _ =>
    complain invocation.name "couldn't find directory entry in '..' with matching i-node"
    return 1

end PipelineShell.Utility
