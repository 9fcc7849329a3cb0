import PipelineShell.Script.Expansion

namespace PipelineShell.Script

open PipelineShell.Action Eval

structure SavedDescriptor where
  descriptor : Descriptor
  copy : Option Descriptor

namespace Redirect

def firstCopy : Descriptor := 10

def modeOf : FileUse → OpenMode
  | .input => { read := true }
  | .output | .overwrite => { write := true, create := true, truncate := true }
  | .append => { write := true, create := true, append := true }
  | .inputOutput => { read := true, write := true, create := true }

def save (descriptor : Descriptor) : Action SavedDescriptor := do
  match ← perform (.duplicateFrom descriptor firstCopy) with
  | .ok copy => return ⟨descriptor, some copy⟩
  | .error _ => return ⟨descriptor, none⟩

def restoreOne (saved : SavedDescriptor) : Action Unit := do
  match saved.copy with
  | some copy =>
    let _ ← perform (.duplicateTo copy saved.descriptor)
    closeAll [copy]
  | none => closeAll [saved.descriptor]

def restore : List SavedDescriptor → Action Unit
  | [] => return
  | saved :: rest => do
    restoreOne saved
    restore rest

def forget (all : List SavedDescriptor) : Action Unit := closeAll (all.filterMap (·.copy))

def install (opened descriptor : Descriptor) : Action Unit := do
  if opened = descriptor then
    match ← perform (.duplicateFrom opened firstCopy) with
    | .ok copy =>
      let _ ← perform (.duplicateTo copy descriptor)
      closeAll [copy]
    | .error _ => return
  else
    let _ ← perform (.duplicateTo opened descriptor)
    closeAll [opened]

def openText (text : ByteArray) : Action (Except Errno Descriptor) := do
  match ← perform .pipe with
  | .error errno => return .error errno
  | .ok (readEnd, writeEnd) =>
    if text.size ≤ 4096 then
      let _ ← writeAll writeEnd text
      closeAll [writeEnd]
      return .ok readEnd
    match ← perform .fork with
    | .error errno => return .error errno
    | .ok .child =>
      closeAll [readEnd]
      let _ ← writeAll writeEnd text
      exit 0
    | .ok (.parent _) =>
      closeAll [writeEnd]
      return .ok readEnd

def descriptor : Redirect → Descriptor
  | file descriptor .. | duplicate descriptor _ | text descriptor _ => descriptor

def apply (run : List Item → Eval (List Char)) (redirect : Redirect) : Eval Bool := do
  match redirect with
  | file descriptor use target =>
    let path ← Expansion.text run target
    let isKept := (← get).hasFlag 'C' && use = .output &&
      (← act (perform (.fileInfo path true))).toOption.any (·.kind = .regular)
    let opened ←
      if isKept then pure (.error .alreadyExists)
      else act (perform (.openFile path (modeOf use)))
    match opened with
    | .ok opened =>
      act (install opened descriptor)
      return true
    | .error errno =>
      let creating := use ≠ .input && use ≠ .inputOutput
      let purpose := if creating then Purpose.creating else .opening
      warn ((if creating then "cannot create " else "cannot open ") ++ path ++ ": " ++
        purpose.message errno)
      return false
  | duplicate descriptor target =>
    let source ← Expansion.text run target
    if source = "-" then
      act (closeAll [descriptor])
      return true
    else
      match source.toNat? with
      | none =>
        warn "Syntax error: Bad fd number"
        return false
      | some number =>
        match ← act (perform (.duplicateTo number descriptor)) with
        | .ok () => return true
        | .error errno =>
          warn (toString number ++ ": " ++ Errno.systemText errno.number)
          return false
  | text descriptor parts =>
    let fields ← Expansion.expandParts run .quoted Expansion.limit {} parts
    let body := String.join (fields.all.map Field.text)
    match ← act (openText body.toUTF8) with
    | .ok opened =>
      act (install opened descriptor)
      return true
    | .error _ => return false

/-- Carries redirections out in order. Returns what has to be restored, the last one first, and
whether all went well. -/
def applyAll (run : List Item → Eval (List Char)) (saved : List SavedDescriptor) :
    List Redirect → Eval (List SavedDescriptor × Bool)
  | [] => return (saved, true)
  | redirect :: rest => do
    let kept ← act (save redirect.descriptor)
    if ← redirect.apply run then applyAll run (kept :: saved) rest
    else return (kept :: saved, false)

end Redirect

end PipelineShell.Script
