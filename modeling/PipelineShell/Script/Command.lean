/-!
# Commands of scripts

The parts of a word say how each of its characters came about, because quoted text is neither split
nor matched against file names. A script is a list of items, each of which joins pipelines by
success or failure.
-/

namespace PipelineShell.Script

inductive FileUse
  | input
  | output
  | overwrite
  | append
  | inputOutput
deriving DecidableEq

mutual

inductive Part
  | plain (text : List Char)
  | quoted (text : List Char)
  | doubled (parts : List Part)
  | parameter (name : String) (use : Use)
  | command (body : List Item)
  | arithmetic (parts : List Part)

inductive Use
  | value
  | length
  | orElse (ifEmpty : Bool) (word : List Part)
  | orAssign (ifEmpty : Bool) (word : List Part)
  | orFail (ifEmpty : Bool) (word : List Part)
  | instead (ifEmpty : Bool) (word : List Part)
  | trim (front longest : Bool) (pattern : List Part)
  | invalid

inductive Redirect
  | file (descriptor : Nat) (use : FileUse) (target : List Part)
  | duplicate (descriptor : Nat) (target : List Part)
  | text (descriptor : Nat) (parts : List Part)

inductive Command
  | simple (line : Nat) (assignments : List (String × List Part)) (words : List (List Part))
    (redirects : List Redirect)
  | group (body : List Item) (redirects : List Redirect)
  | subshell (body : List Item) (redirects : List Redirect)
  | choice (branches : List (List Item × List Item)) (otherwise : List Item)
    (redirects : List Redirect)
  | repeated (whileFails : Bool) (condition body : List Item) (redirects : List Redirect)
  | each (name : String) (words : Option (List (List Part))) (body : List Item)
    (redirects : List Redirect)
  | select (subject : List Part) (clauses : List (List (List Part) × List Item))
    (redirects : List Redirect)
  | define (name : String) (body : Command)

inductive Chain
  | mk (negated : Bool) (commands : List Command)

inductive Item
  | mk (first : Chain) (rest : List (Bool × Chain)) (background : Bool)

end

abbrev Word := List Part

def specialNames : List String := [
  ".", ":", "break", "continue", "eval", "exec", "exit", "export", "readonly", "return", "set",
  "shift", "times", "trap", "unset"]

def Item.isBackground : Item → Bool
  | .mk _ _ background => background

end PipelineShell.Script
