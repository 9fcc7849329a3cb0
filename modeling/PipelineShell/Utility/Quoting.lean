/-!
# Names and texts in messages

A message shows a text between quotes, or the name of a file in the form in which a shell would
read it back. Characters outside of ASCII and control characters are shown by escapes.
-/

namespace PipelineShell.Utility

namespace Quoting

def octalEscape (byte : UInt8) : List Char :=
  let digit (n : UInt8) : Char := Char.ofNat (48 + (n &&& 7).toNat)
  ['\\', digit (byte >>> 6), digit (byte >>> 3), digit byte]

def escape? (c : Char) : Option (List Char) :=
  match c with
  | '\x07' => some ['\\', 'a']
  | '\x08' => some ['\\', 'b']
  | '\x09' => some ['\\', 't']
  | '\x0a' => some ['\\', 'n']
  | '\x0b' => some ['\\', 'v']
  | '\x0c' => some ['\\', 'f']
  | '\x0d' => some ['\\', 'r']
  | c =>
    if ' ' ≤ c && c ≤ '~' then none
    else some (c.toString.toUTF8.toList.flatMap octalEscape)

def isHarmless (isFirst : Bool) (c : Char) : Bool :=
  c.isAlphanum || "%+,-./:]_@ '".contains c || (isFirst && (c = '#' || c = '~'))

def shellInside (escaping : Bool) : List Char → List Char
  | [] => []
  | c :: rest =>
    match escape? c with
    | some escape =>
      (if escaping then [] else ['\'', '$', '\'']) ++ escape ++ shellInside true rest
    | none =>
      if c = '\'' then ['\'', '\\', '\'', '\''] ++ shellInside false rest
      else (if escaping then ['\'', '\''] else []) ++ c :: shellInside false rest

def needsQuotes (text : String) : Bool :=
  let characters := text.toList
  characters.isEmpty || characters = ['\x7b'] || characters = ['\x7d'] ||
    (characters.head?.any fun c => c = '#' || c = '~') ||
    characters.any fun c => (escape? c).isSome || " !\"$&'()*;<=>?[\\^`|:".contains c

end Quoting

open Quoting

def quoted (text : String) : String :=
  let inside := text.toList.flatMap fun c =>
    if c = '\'' || c = '\\' then ['\\', c] else (escape? c).getD [c]
  String.ofList ('\'' :: inside ++ ['\''])

def shellQuoted (text : String) : String :=
  let characters := text.toList
  let harmless := (characters.zipIdx).all fun (c, i) => isHarmless (i = 0) c
  if characters.contains '\'' && harmless then "\"" ++ text ++ "\""
  else String.ofList ('\'' :: shellInside false characters ++ ['\''])

def shellName (name : String) : String :=
  if needsQuotes name then shellQuoted name else name

end PipelineShell.Utility
