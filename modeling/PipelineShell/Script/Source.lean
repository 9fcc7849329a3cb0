import PipelineShell.Script.Parse
import PipelineShell.System.Action
import PipelineShell.Text.Utf8

namespace PipelineShell.Script

open PipelineShell.Action

structure Source where
  text : List Char
  line : Nat := 1
  descriptor : Option Descriptor := none
  tail : List UInt8 := []

namespace Source

def ofText (text : String) : Source := { text := text.toList }

def ofDescriptor (descriptor : Descriptor) : Source :=
  { text := [], descriptor := some descriptor }

def blockSize : Nat := 8192

def splitLast (bytes : List UInt8) : List UInt8 × List UInt8 :=
  let after := (bytes.reverse.takeWhile (· != 0x0a)).reverse
  (bytes.take (bytes.length - after.length), after)

def readMore (source : Source) : Action Source := do
  match source.descriptor with
  | none => return source
  | some descriptor =>
    match ← uninterrupted (perform (.read descriptor blockSize)) with
    | .ok data =>
      if data.isEmpty then
        return { source with
          text := source.text ++ Utf8.decodeLossy source.tail, descriptor := none, tail := [] }
      let (whole, tail) := splitLast (source.tail ++ data.toList.filter (· != 0))
      return { source with text := source.text ++ Utf8.decodeLossy whole, tail }
    | .error _ =>
      return { source with
        text := source.text ++ Utf8.decodeLossy source.tail, descriptor := none, tail := [] }

def isSpent (source : Source) : Bool :=
  source.descriptor.isNone && source.text.all fun c => c = ' ' || c = '\t' || c = '\n'

inductive Next
  | over
  | line (items : List Item) (source : Source)
  | needsMore
  | wrong (line : Nat) (message : String)

def next (source : Source) (aliases : List (String × String)) : Next :=
  let input : Input :=
    { text := source.text, line := source.line, final := source.descriptor.isNone, aliases }
  match Reader.readLine.run input with
  | .ok (none, _) => .over
  | .ok (some items, input) => .line items { source with text := input.text, line := input.line }
  | .error .incomplete => .needsMore
  | .error (.wrong line message) => .wrong line message

end Source

end PipelineShell.Script
