/-!
# Patterns of names

Patterns with `*`, `?` and sets of characters. A character that came out of quotes stands for
itself.
-/

namespace PipelineShell

structure Cell where
  char : Char
  special : Bool
deriving DecidableEq

abbrev Field := List Cell

namespace Field

def text (field : Field) : String := String.ofList (field.map (·.char))

def ofText (special : Bool) (text : List Char) : Field := text.map fun c => ⟨c, special⟩

def isPattern (field : Field) : Bool :=
  field.any fun cell => cell.special && cell.char ∈ ['*', '?', '[']

def readMembers (isFirst : Bool) : Field → Option (Field × Field)
  | [] => none
  | cell :: rest =>
    if cell.char = ']' && cell.special && !isFirst then some ([], rest)
    else (readMembers false rest).map fun (members, rest) => (cell :: members, rest)

def inSet (c : Char) : Field → Bool
  | low :: hyphen :: high :: rest =>
    if hyphen.char = '-' && hyphen.special then
      (low.char ≤ c && c ≤ high.char) || inSet c rest
    else low.char = c || inSet c (hyphen :: high :: rest)
  | cell :: rest => cell.char = c || inSet c rest
  | [] => false
termination_by field => field.length

def fits (pattern : Field) (text : List Char) : Bool :=
  match pattern with
  | [] => text.isEmpty
  | cell :: rest =>
    if cell.special && cell.char = '*' then
      fits rest text ||
        match text with
        | [] => false
        | _ :: tail => fits (cell :: rest) tail
    else
      match text with
      | [] => false
      | c :: tail =>
        if cell.special && cell.char = '?' then fits rest tail
        else if cell.special && cell.char = '[' then
          let negation := match rest with
            | ⟨'!', true⟩ :: more | ⟨'^', true⟩ :: more => some more
            | _ => none
          match readMembers true (negation.getD rest) with
          | some (members, after) =>
            (if negation.isSome then !inSet c members else inSet c members) && fits after tail
          | none => c = '[' && fits rest tail
        else cell.char = c && fits rest tail
termination_by (text.length, pattern.length)

end Field

end PipelineShell
