import PipelineShell.Host.FileTree
import PipelineShell.System.Action

/-!
# Processes and what they hold open

A process has a program that is still to be run, a table of descriptors, and what a fork passes on:
directory, environment, mask, ignored signals and the limit of its descriptors. Descriptors refer to
open files, which several of them may share together with their offset.
-/

namespace PipelineShell.Host

inductive Resource
  | node (id : NodeId)
  | pipe (id : Nat)
  | outlet (number : Nat)
  | terminal
  | device (device : Device)
  | text (data : ByteArray)
  | directory

structure OpenFile where
  resource : Resource
  mode : OpenMode
  offset : Nat := 0

structure DescriptorEntry where
  number : Descriptor
  file : Nat
  closeOnExec : Bool

structure Pipe where
  buffer : ByteArray := ByteArray.empty
  start : Nat := 0

namespace Pipe

def capacity : Nat := 65536

def atomicSize : Nat := 4096

def unread (pipe : Pipe) : Nat := pipe.buffer.size - pipe.start

def take (pipe : Pipe) (count : Nat) : ByteArray × Pipe :=
  let stop := min pipe.buffer.size (pipe.start + count)
  let data := pipe.buffer.extract pipe.start stop
  (data, if stop = pipe.buffer.size then {} else { pipe with start := stop })

def append (pipe : Pipe) (data : ByteArray) : Pipe :=
  if pipe.start = 0 then { pipe with buffer := pipe.buffer ++ data }
  else ⟨pipe.buffer.extract pipe.start pipe.buffer.size ++ data, 0⟩

end Pipe

structure Invocation where
  name : String
  arguments : List String
  environment : Environment

abbrev Program := Invocation → Action Nat

inductive Life
  | running (program : Action Nat)
  | ended (report : ChildReport)

abbrev Pid := Int

structure Process where
  pid : Pid
  parent : Pid
  life : Life
  wakeAt : Option Nat := none
  descriptors : List DescriptorEntry
  directory : NodeId
  environment : Environment
  mask : Nat
  ignored : List Nat := []
  descriptorLimit : Nat := 0x100000
  written : Nat := 0
  command : String

namespace Process

def isRunning (process : Process) : Bool :=
  match process.life with
  | .running _ => true
  | .ended _ => false

def descriptor? (process : Process) (number : Descriptor) : Option DescriptorEntry :=
  process.descriptors.find? (·.number == number)

def freeDescriptor (process : Process) (least : Nat) : Descriptor :=
  let taken := process.descriptors.map (·.number)
  ((List.range' least (taken.length + 1)).find? fun number => !taken.contains number).getD least

def hasRoom (process : Process) (least : Nat) : Bool :=
  process.freeDescriptor least < process.descriptorLimit

def setDescriptor (process : Process) (entry : DescriptorEntry) : Process :=
  { process with
    descriptors := process.descriptors.filter (·.number != entry.number) ++ [entry] }

def removeDescriptor (process : Process) (number : Descriptor) : Process :=
  { process with descriptors := process.descriptors.filter (·.number != number) }

def keepInherited (process : Process) : Process :=
  { process with descriptors := process.descriptors.filter fun entry => !entry.closeOnExec }

end Process

end PipelineShell.Host
