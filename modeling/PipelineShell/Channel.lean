import PipelineShell.System.Action

/-!
# Report channels

How a child tells its parent that it could not start its program. Both ends of the channel are
closed by a successful `exec`, so the parent reads the end of the input then, and an error number
otherwise.
-/

namespace PipelineShell

namespace Errno

def toBytes (errno : Errno) : ByteArray :=
  ⟨#[UInt8.ofNat errno.number, UInt8.ofNat (errno.number / 0x100),
    UInt8.ofNat (errno.number / 0x10000), UInt8.ofNat (errno.number / 0x1000000)]⟩

def ofBytes? (bytes : ByteArray) : Option Errno :=
  match bytes.data.toList with
  | [a, b, c, d] =>
    let value := a.toNat + b.toNat * 0x100 + c.toNat * 0x10000 + d.toNat * 0x1000000
    some (ofRaw (Int.bmod value 0x100000000))
  | _ => none

example : ofBytes? (toBytes canceled) = some canceled := by decide +kernel

end Errno

structure Channel where
  watcher : Descriptor
  reporter : Descriptor
deriving Repr, DecidableEq

namespace Channel

open PipelineShell.Action

def create : Action (Except Errno Channel) := do
  match ← perform .pipe with
  | .ok (readEnd, writeEnd) => return .ok ⟨readEnd, writeEnd⟩
  | .error errno => return .error errno

def report (reporter : Descriptor) (errno : Errno) : Action Unit := do
  let _ ← writeAll reporter errno.toBytes
  closeAll [reporter]

def await (watcher : Descriptor) : Action (Option Errno) := do
  let answer ← readFull watcher 4
  closeAll [watcher]
  match answer with
  | .ok bytes => return Errno.ofBytes? bytes
  | .error _ => return none

end Channel

end PipelineShell
