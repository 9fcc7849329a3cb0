import PipelineShell.Utility.Basic
import PipelineShell.Utility.Pattern

/-!
# Commands of the line editor

The editor goes through lines with a list of commands. A command applies to the lines that its
addresses select. Blocks are laid out flat: a block that is not selected is skipped by its length.
-/

namespace PipelineShell.Utility.Editor

inductive Address
  | line (number : Nat)
  | every (first step : Nat)
  | last
  | pattern (pattern : Pattern)

inductive RangeEnd
  | address (address : Address)
  | after (count : Nat)

structure Selection where
  first : Option Address := none
  stop : Option RangeEnd := none
  negated : Bool := false

inductive Piece
  | text (bytes : List UInt8)
  | whole
  | group (index : Nat)

structure Substitution where
  pattern : Pattern
  replacement : List Piece
  occurrence : Nat := 1
  further : Bool := false
  print : Bool := false

inductive Task
  | print
  | printFirst
  | printNumber
  | delete
  | deleteFirst
  | quit (status : Nat) (silently : Bool)
  | substitute (substitution : Substitution)
  | transliterate (pairs : List (UInt8 × UInt8))
  | append (text : List UInt8)
  | insert (text : List UInt8)
  | change (text : List UInt8)
  | next
  | joinNext
  | hold
  | holdMore
  | get
  | getMore
  | exchange
  | label (name : String)
  | branch (name : String)
  | branchIfReplaced (name : String)
  | block (length : Nat)

structure Command where
  selection : Selection
  task : Task

/-! ## Replacing -/

namespace Substitution

def replaced (substitution : Substitution) (atStart atStop : Bool) (found : List UInt8) :
    List UInt8 :=
  substitution.replacement.flatMap fun piece =>
    match piece with
    | .text bytes => bytes
    | .whole | .group 0 => found
    | .group index => substitution.pattern.capture atStart atStop found index

/-- Replaces matches from a place of a text on. `count` matches have been seen, and an empty one
does not count right after another. The result tells whether anything has been replaced. -/
def applyFrom (substitution : Substitution) (count : Nat) (atStart afterMatch : Bool) :
    Nat → List UInt8 → List UInt8 × Bool
  | 0, text => (text, false)
  | bound + 1, text =>
    let step (count : Nat) (lead : List UInt8) (done : Bool) (rest : List UInt8)
        (afterMatch : Bool) : List UInt8 × Bool :=
      let (output, changed) := applyFrom substitution count false afterMatch bound rest
      (lead ++ output, done || changed)
    let plain (count : Nat) (lead : List UInt8) (done : Bool) : List UInt8 × Bool :=
      match text with
      | [] => (lead, done)
      | b :: rest => step count (lead ++ [b]) done rest false
    match substitution.pattern.longest? atStart 0 none text with
    | none => plain count [] false
    | some length =>
      if length = 0 && afterMatch then plain count [] false
      else
        let count := count + 1
        let isWanted := count = substitution.occurrence ||
          (substitution.further && substitution.occurrence < count)
        let found := text.take length
        let rest := text.drop length
        let lead := if isWanted then substitution.replaced atStart rest.isEmpty found else found
        if isWanted && !substitution.further then (lead ++ rest, true)
        else if length = 0 then plain count lead isWanted
        else step count lead isWanted rest true

def apply (substitution : Substitution) (text : List UInt8) : List UInt8 × Bool :=
  substitution.applyFrom 0 true false (2 * text.length + 2) text

end Substitution

end PipelineShell.Utility.Editor
