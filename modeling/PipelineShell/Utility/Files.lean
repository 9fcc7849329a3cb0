import PipelineShell.Utility.Listing

namespace PipelineShell.Utility

open PipelineShell.Action Host

def forEach (each : String → Action Nat) (status : Nat) : List String → Action Nat
  | [] => return status
  | operand :: rest => do
    let next ← each operand
    forEach each (max status next) rest

def missingOperand (name what : String) : Action Nat := do
  complain name ("missing " ++ what)
  tryHelp name
  return 1

def settle (name what path : String) : Except Errno Unit → Action Nat
  | .ok () => return 0
  | .error errno => do
    complain name (what ++ " " ++ shellQuoted path ++ ": " ++ errorText errno)
    return 1

def announce (wanted : Bool) (text : String) (status : Nat) : Action Nat := do
  if wanted && status = 0 then
    let _ ← putText (text ++ "\n")
  return status

/-! ## Creating -/

def touch : Program := fun invocation =>
  withOptions invocation
    { flags := ['a', 'c', 'f', 'm', 'h'], values := ['d', 'r', 't'], long := [("no-create", 'c')] }
    fun parsed => do
      if parsed.operands.isEmpty then missingOperand invocation.name "file operand"
      else
        forEach (fun path => do
          match ← perform (.fileInfo path true) with
          | .ok _ => return 0
          | .error errno =>
            if errno = .noEntry && parsed.has 'c' then return 0
            match ← perform (.openFile path { write := true, create := true }) with
            | .ok descriptor =>
              closeAll [descriptor]
              return 0
            | .error errno => settle invocation.name "cannot touch" path (.error errno))
          0 parsed.operands

def leadingPaths (path : String) : List String :=
  let names := pathNames path
  let root := if path.startsWith "/" then "/" else ""
  (List.range names.length).map fun i => root ++ "/".intercalate (names.take (i + 1))
where
  pathNames (path : String) : List String := (path.splitToList (· == '/')).filter (!·.isEmpty)

def createdDirectory (name path : String) : String :=
  name ++ ": created directory " ++ shellQuoted path

def makeDirectories (name : String) (verbose : Bool) (permissions : Nat) :
    List String → Action Nat
  | [] => return 0
  | path :: rest => do
    let made ← perform (.makeDirectory path permissions)
    let isDirectory := (← perform (.fileInfo path true)).toOption.any (·.kind = .directory)
    if isDirectory then
      let _ ← announce (verbose && made.isOk) (createdDirectory name path) 0
      makeDirectories name verbose permissions rest
    else settle name "cannot create directory" path made

/-! ## Permissions -/

def octal? (text : String) : Option Nat :=
  let digits := text.toList
  if digits.isEmpty || digits.any (fun c => !('0' ≤ c && c ≤ '7')) then none
  else some (digits.foldl (fun value c => value * 8 + (c.toNat - '0'.toNat)) 0)

def applyClause (mask : Nat) (mode : Nat) (clause : String) : Option Nat := do
  let text := clause.toList
  let who := text.takeWhile fun c => c ∈ ['u', 'g', 'o', 'a']
  let (operator, letters) ← match text.drop who.length with
    | c :: rest => some (c, rest)
    | [] => none
  guard (operator ∈ ['+', '-', '='] && letters.all fun c => c ∈ ['r', 'w', 'x', 'X', 's', 't'])
  let bit (c : Char) : Nat :=
    if c = 'r' then 4 else if c = 'w' then 2
    else if c = 'x' || (c = 'X' && mode &&& 0o111 != 0) then 1 else 0
  let bits := letters.foldl (fun bits c => bits ||| bit c) 0
  let shifts := [('u', 6), ('g', 3), ('o', 0)].filterMap fun (c, shift) =>
    if who.isEmpty || 'a' ∈ who || c ∈ who then some shift else none
  let selected := shifts.foldl (fun all shift => all ||| (bits <<< shift)) 0
  let cleared := shifts.foldl (fun all shift => all ||| (7 <<< shift)) 0
  let selected := if who.isEmpty then selected &&& (0o777 ^^^ (mask &&& 0o777)) else selected
  return match operator with
    | '+' => mode ||| selected
    | '-' => mode &&& (0o7777 ^^^ selected)
    | _ => (mode &&& (0o7777 ^^^ cleared)) ||| selected

def changedMode? (mask mode : Nat) (text : String) : Option Nat :=
  match octal? text with
  | some mode => some mode
  | none => (text.splitToList (· == ',')).foldlM (applyClause mask) mode

def chmod : Program := fun invocation => do
  let arguments := invocation.arguments.filter fun argument => argument ∉ ["-v", "-f", "-c", "--"]
  match arguments with
  | [] => missingOperand invocation.name "operand"
  | [mode] =>
    complain invocation.name ("missing operand after " ++ quoted mode)
    tryHelp invocation.name
    return 1
  | mode :: paths =>
    let mask ← perform (.setMask 0)
    let _ ← perform (.setMask mask)
    if (changedMode? mask 0 mode).isNone then
      complain invocation.name ("invalid mode: " ++ quoted mode)
      tryHelp invocation.name
      return 1
    forEach (fun path => do
      match ← perform (.fileInfo path true) with
      | .error errno =>
        complainAccess invocation.name path errno
        return 1
      | .ok info =>
        let changed := (changedMode? mask info.permissions mode).getD info.permissions
        settle invocation.name "changing permissions of" path
          (← perform (.setPermissions path changed)))
      0 paths

def mkdir : Program := fun invocation =>
  withOptions invocation
    { flags := ['p', 'v'], values := ['m']
      long := [("parents", 'p'), ("mode", 'm'), ("verbose", 'v')] }
    fun parsed => do
      if parsed.operands.isEmpty then missingOperand invocation.name "operand"
      else
        forEach (fun path => do
          let status ←
            if parsed.has 'p' then
              makeDirectories invocation.name (parsed.has 'v') 0o777 (leadingPaths path)
            else do
              let made ← perform (.makeDirectory path 0o777)
              announce (parsed.has 'v') (createdDirectory invocation.name path)
                (← settle invocation.name "cannot create directory" path made)
          if status = 0 then
            if let some mode := (parsed.value? 'm').bind octal? then
              let _ ← perform (.setPermissions path mode)
          return status) 0 parsed.operands

def ln : Program := fun invocation =>
  withOptions invocation
    { flags := ['s', 'f', 'n', 'v', 'T']
      long := [("symbolic", 's'), ("force", 'f'), ("verbose", 'v')] }
    fun parsed => do
      let tell (arrow target path : String) : Action Nat :=
        announce (parsed.has 'v') (shellQuoted path ++ arrow ++ shellQuoted target) 0
      let link (target path : String) : Action Nat := do
        if parsed.has 'f' then
          let _ ← perform (.removeFile path)
        if parsed.has 's' then
          match ← perform (.makeLink target path) with
          | .ok () => tell " -> " target path
          | failed => settle invocation.name "failed to create symbolic link" path failed
        else
          match ← perform (.fileInfo target false) with
          | .error errno => settle invocation.name "failed to access" target (.error errno)
          | .ok info =>
            if info.kind = .directory then
              complain invocation.name (shellName target ++ ": hard link not allowed for directory")
              return 1
            match ← perform (.addName target path) with
            | .ok () => tell " => " target path
            | .error errno =>
              complain invocation.name ("failed to create hard link " ++ shellQuoted path ++
                (if errno = .alreadyExists then "" else " => " ++ shellQuoted target) ++ ": " ++
                errorText errno)
              return 1
      let isDirectory (path : String) : Action Bool := do
        return (← perform (.fileInfo path true)).toOption.any (·.kind = .directory)
      match parsed.operands with
      | [] => missingOperand invocation.name "file operand"
      | [target] => link target (lastName target)
      | [target, path] =>
        if ← isDirectory path then link target (path ++ "/" ++ lastName target)
        else link target path
      | targets =>
        let directory := targets.getLast?.getD ""
        if ← isDirectory directory then
          forEach (fun target => link target (directory ++ "/" ++ lastName target)) 0
            targets.dropLast
        else
          complain invocation.name ("target " ++ shellQuoted directory ++ ": Not a directory")
          return 1

/-! ## Removing -/

mutual

def removeTree (name : String) (verbose : Bool) (depth : Nat) (path : String) : Action Nat := do
  match depth with
  | 0 => return 1
  | depth + 1 =>
    match ← perform (.fileInfo path false) with
    | .error errno => settle name "cannot remove" path (.error errno)
    | .ok info =>
      if info.kind = .directory then
        match ← perform (.listDirectory path) with
        | .error errno => settle name "cannot remove" path (.error errno)
        | .ok names =>
          let status ←
            removeEach name verbose depth 0 (names.map fun inner => path ++ "/" ++ inner)
          if status ≠ 0 then return status
          announce verbose ("removed directory " ++ shellQuoted path)
            (← settle name "cannot remove" path (← perform (.removeDirectory path)))
      else
        announce verbose ("removed " ++ shellQuoted path)
          (← settle name "cannot remove" path (← perform (.removeFile path)))
termination_by (depth, 0)

def removeEach (name : String) (verbose : Bool) (depth status : Nat) (paths : List String) :
    Action Nat := do
  match paths with
  | [] => return status
  | path :: rest =>
    let next ← removeTree name verbose depth path
    removeEach name verbose depth (max status next) rest
termination_by (depth, paths.length + 1)

end

def treeDepth : Nat := 4096

def rm : Program := fun invocation =>
  withOptions invocation
    { flags := ['d', 'f', 'i', 'I', 'r', 'R', 'v']
      long := [("force", 'f'), ("recursive", 'r'), ("dir", 'd'), ("verbose", 'v')] }
    fun parsed => do
      let recursive := parsed.has 'r' || parsed.has 'R'
      let force := parsed.has 'f'
      if parsed.operands.isEmpty then
        if force then return 0 else missingOperand invocation.name "operand"
      else
        forEach (fun path => do
          let last := lastName path
          if recursive && (last = "." || last = "..") then
            complain invocation.name
              ("refusing to remove '.' or '..' directory: skipping " ++ shellQuoted path)
            return 1
          match ← perform (.fileInfo path false) with
          | .error errno =>
            if force && (errno = .noEntry || errno = .notDirectory) then return 0
            settle invocation.name "cannot remove" path (.error errno)
          | .ok info =>
            if info.kind = .directory && !recursive then
              if parsed.has 'd' then
                announce (parsed.has 'v') ("removed directory " ++ shellQuoted path)
                  (← settle invocation.name "cannot remove" path
                    (← perform (.removeDirectory path)))
              else settle invocation.name "cannot remove" path (.error .isDirectory)
            else removeTree invocation.name (parsed.has 'v') treeDepth path) 0 parsed.operands

def rmdir : Program := fun invocation =>
  withOptions invocation
    { flags := ['p', 'v'], long := [("parents", 'p'), ("verbose", 'v')] }
    fun parsed => do
      if parsed.operands.isEmpty then missingOperand invocation.name "operand"
      else
        forEach (fun path => do
          let paths := if parsed.has 'p' then (leadingPaths path).reverse else [path]
          remove invocation.name (parsed.has 'v') paths) 0 parsed.operands
where
  remove (name : String) (verbose : Bool) : List String → Action Nat
    | [] => return 0
    | path :: rest => do
      let _ ← announce verbose (name ++ ": removing directory, " ++ shellQuoted path) 0
      match ← settle name "failed to remove" path (← perform (.removeDirectory path)) with
      | 0 => remove name verbose rest
      | status => return status

/-! ## Copying and renaming -/

def copyContents (source target : Descriptor) : Action (Except Errno Unit) :=
  foldChunks source 131072
    (fun () data => do
      match ← writeAll target data with
      | .ok () => return .again ()
      | .error errno => return .leave (.error errno))
    (fun () error => return match error with
      | none => .ok ()
      | some errno => .error errno)
    ()

def copyFile (name : String) (verbose : Bool) (source target : String) (info : FileInfo) :
    Action Nat := do
  let existing := (← perform (.fileInfo target true)).toOption
  if existing.any (·.identity = info.identity) then
    complain name (shellQuoted source ++ " and " ++ shellQuoted target ++ " are the same file")
    return 1
  match ← perform (.openFile source { read := true }) with
  | .error errno =>
    complain name ("cannot open " ++ shellQuoted source ++ " for reading: " ++ errorText errno)
    return 1
  | .ok input =>
    let mode : OpenMode :=
      { write := true, create := true, truncate := true, permissions := info.permissions }
    let status ← match ← perform (.openFile target mode) with
      | .error errno =>
        settle name "cannot create regular file" target (.error errno)
      | .ok output =>
        let _ ← announce verbose (shellQuoted source ++ " -> " ++ shellQuoted target) 0
        let copied ← copyContents input output
        closeAll [output]
        match copied with
        | .ok () => pure 0
        | .error errno =>
          complain name ("error writing " ++ shellQuoted target ++ ": " ++ errorText errno)
          pure 1
    closeAll [input]
    return status

mutual

def copyTree (name : String) (recursive verbose : Bool) (depth : Nat) (source target : String) :
    Action Nat := do
  match depth with
  | 0 => return 1
  | depth + 1 =>
    match ← perform (.fileInfo source (!recursive)) with
    | .error errno =>
      complain name ("cannot stat " ++ shellQuoted source ++ ": " ++ errorText errno)
      return 1
    | .ok info =>
      match info.kind with
      | .directory =>
        if !recursive then
          complain name ("-r not specified; omitting directory " ++ shellQuoted source)
          return 1
        let made ← perform (.makeDirectory target (info.permissions ||| 0o700))
        let present := (← perform (.fileInfo target true)).toOption.any (·.kind = .directory)
        if !present then settle name "cannot create directory" target made
        else
          let _ ← announce (verbose && made.isOk)
            (shellQuoted source ++ " -> " ++ shellQuoted target) 0
          match ← perform (.listDirectory source) with
          | .error errno => settle name "cannot access" source (.error errno)
          | .ok names =>
            copyEach name recursive verbose depth 0
              (names.map fun inner => (source ++ "/" ++ inner, target ++ "/" ++ inner))
      | .link =>
        match ← perform (.readLink source) with
        | .ok link =>
          let made ← perform (.makeLink link target)
          announce verbose (shellQuoted source ++ " -> " ++ shellQuoted target)
            (← settle name "cannot create symbolic link" target made)
        | .error errno => settle name "cannot read symbolic link" source (.error errno)
      | _ => copyFile name verbose source target info
termination_by (depth, 0)

def copyEach (name : String) (recursive verbose : Bool) (depth status : Nat)
    (pairs : List (String × String)) : Action Nat := do
  match pairs with
  | [] => return status
  | (source, target) :: rest =>
    let next ← copyTree name recursive verbose depth source target
    copyEach name recursive verbose depth (max status next) rest
termination_by (depth, pairs.length + 1)

end

def withTargets (name : String) (operands : List String)
    (use : List (String × String) → Action Nat) : Action Nat := do
  match operands with
  | [] => missingOperand name "file operand"
  | [source] => missingOperand name ("destination file operand after " ++ shellQuoted source)
  | _ =>
    let target := operands.getLast?.getD ""
    let sources := operands.dropLast
    let info ← perform (.fileInfo target true)
    if info.toOption.any (·.kind = .directory) then
      let base := if target.endsWith "/" then target else target ++ "/"
      use (sources.map fun source => (source, base ++ lastName source))
    else
      match sources with
      | [source] => use [(source, target)]
      | _ =>
        let reason := match info with
          | .error errno => errno
          | .ok _ => .notDirectory
        complain name ("target " ++ shellQuoted target ++ ": " ++ errorText reason)
        return 1

def cp : Program := fun invocation =>
  withOptions invocation
    { flags := ['a', 'f', 'i', 'n', 'p', 'r', 'R', 'v', 'd', 'P', 'L']
      long := [("recursive", 'r'), ("force", 'f'), ("archive", 'a'), ("verbose", 'v')] }
    fun parsed =>
      let recursive := parsed.has 'r' || parsed.has 'R' || parsed.has 'a'
      withTargets invocation.name parsed.operands fun pairs =>
        copyEach invocation.name recursive (parsed.has 'v') treeDepth 0 pairs

def mv : Program := fun invocation =>
  withOptions invocation
    { flags := ['f', 'i', 'n', 'v']
      long := [("force", 'f'), ("no-clobber", 'n'), ("verbose", 'v')] }
    fun parsed =>
      withTargets invocation.name parsed.operands (moveEach invocation.name (parsed.has 'v') 0)
where
  moveEach (name : String) (verbose : Bool) (status : Nat) : List (String × String) → Action Nat
    | [] => return status
    | (source, target) :: rest => do
      let next ← match ← perform (.fileInfo source false) with
        | .error errno => do
          complain name ("cannot stat " ++ shellQuoted source ++ ": " ++ errorText errno)
          pure 1
        | .ok info => do
          let existing := (← perform (.fileInfo target false)).toOption
          if existing.any (·.identity = info.identity) then
            complain name
              (shellQuoted source ++ " and " ++ shellQuoted target ++ " are the same file")
            pure 1
          else
            match ← perform (.rename source target) with
            | .ok () =>
              announce verbose ("renamed " ++ shellQuoted source ++ " -> " ++ shellQuoted target) 0
            | .error errno =>
              complain name ("cannot move " ++ shellQuoted source ++ " to " ++ shellQuoted target ++
                ": " ++ errorText errno)
              pure 1
      moveEach name verbose (max status next) rest

/-! ## Resizing -/

def resized? (size : Nat) (text : String) : Option Nat :=
  match text.toList with
  | c :: rest =>
    let amount := sizeOf? (String.ofList rest)
    match c with
    | '+' => amount.map (size + ·)
    | '-' => amount.map (size - ·)
    | '<' => amount.map (min size ·)
    | '>' => amount.map (max size ·)
    | '/' => amount.bind fun unit => if unit = 0 then none else some (size / unit * unit)
    | '%' => amount.bind fun unit =>
      if unit = 0 then none else some ((size + unit - 1) / unit * unit)
    | _ => sizeOf? text
  | [] => none

def truncate : Program := fun invocation =>
  withOptions invocation
    { flags := ['c', 'o'], values := ['s', 'r']
      long := [("no-create", 'c'), ("size", 's'), ("reference", 'r')] }
    fun parsed => do
      let fail (message : String) : Action Nat := do
        complain invocation.name message
        tryHelp invocation.name
        return 1
      let reference ← match parsed.value? 'r' with
        | some path => perform (.fileInfo path true)
        | none => pure (.error .invalid)
      match parsed.value? 's' <|> reference.toOption.map (toString ·.size) with
      | none => fail "you must specify either '--size' or '--reference'"
      | some text =>
        if (resized? 0 text).isNone then
          complain invocation.name ("Invalid number: " ++ quoted text)
          return 1
        if parsed.operands.isEmpty then fail "missing file operand"
        else
          forEach (fun path => do
            let mode : OpenMode := { read := true, write := true, create := !parsed.has 'c' }
            match ← perform (.openFile path mode) with
            | .error errno =>
              if errno = .noEntry && parsed.has 'c' then return 0
              complain invocation.name
                ("cannot open " ++ shellQuoted path ++ " for writing: " ++ errorText errno)
              return 1
            | .ok descriptor =>
              let data := (← readAll descriptor).toOption.getD ByteArray.empty
              closeAll [descriptor]
              let size := (resized? data.size text).getD data.size
              let zeros : ByteArray := ⟨(List.replicate (size - data.size) 0).toArray⟩
              match ← perform (.openFile path { write := true, truncate := true }) with
              | .error errno => settle invocation.name "failed to truncate" path (.error errno)
              | .ok descriptor =>
                let _ ← writeAll descriptor (data.extract 0 size ++ zeros)
                closeAll [descriptor]
                return 0)
            0 parsed.operands

end PipelineShell.Utility
