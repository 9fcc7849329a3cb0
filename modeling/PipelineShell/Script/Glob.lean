import PipelineShell.System.Action
import PipelineShell.Text.Glob

namespace PipelineShell.Field

open PipelineShell.Action

def names (field : Field) : List Field :=
  field.foldr (fun cell names =>
    if cell.char = '/' then [] :: names
    else
      match names with
      | name :: rest => (cell :: name) :: rest
      | [] => [[cell]]) [[]]

def namesIn (directory : String) (pattern : Field) : Action (List String) := do
  match ← perform (.listDirectory (if directory.isEmpty then "." else directory)) with
  | .error _ => return []
  | .ok names =>
    let hidden := (pattern.head?.map (·.char)) = some '.'
    let all := if hidden then names ++ [".", ".."] else names
    let fitting := all.filter fun name =>
      (hidden || !name.startsWith ".") && pattern.fits name.toList
    return fitting.mergeSort fun a b => compare a.toUTF8.toList b.toUTF8.toList != .gt

def pathsFrom (leading : String) : List Field → Action (List String)
  | [] => return [leading]
  | pattern :: rest => do
    let gap := if rest.isEmpty then "" else "/"
    if pattern.isPattern then
      collect (fun name => pathsFrom (leading ++ name ++ gap) rest) (← namesIn leading pattern)
    else
      let path := leading ++ pattern.text
      if rest.isEmpty then
        if pattern.isEmpty then return [path]
        match ← perform (.fileInfo path false) with
        | .ok _ => return [path]
        | .error _ => return []
      else pathsFrom (path ++ gap) rest
where
  collect (each : String → Action (List String)) : List String → Action (List String)
    | [] => return []
    | name :: others => do
      let first ← each name
      return first ++ (← collect each others)

def paths (field : Field) : Action (List String) := do
  if field.isPattern then
    match ← pathsFrom "" field.names with
    | [] => return [field.text]
    | found => return found
  else return [field.text]

end PipelineShell.Field
