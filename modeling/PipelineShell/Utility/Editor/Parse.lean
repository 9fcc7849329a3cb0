import PipelineShell.Utility.Editor.Command

namespace PipelineShell.Utility.Editor

structure Mistake where
  message : String
  left : Nat

namespace Read

def fail {α : Type} (message : String) (rest : List Char) : Except Mistake (α × List Char) :=
  .error ⟨message, rest.length⟩

def isSpace (c : Char) : Bool := c = ' ' || c = '\t'

def isSeparator (c : Char) : Bool := isSpace c || c = '\n' || c = ';'

def number (digits : List Char) : Nat :=
  digits.foldl (fun value c => value * 10 + (c.toNat - '0'.toNat)) 0

def bytes (text : List Char) : List UInt8 := (String.ofList text).toUTF8.toList

def delimited? (delimiter : Char) : List Char → Option (List Char × List Char)
  | [] => none
  | '\\' :: c :: rest =>
    (delimited? delimiter rest).map fun (text, rest) =>
      (if c = delimiter then c :: text else '\\' :: c :: text, rest)
  | c :: rest =>
    if c = delimiter then some ([], rest)
    else (delimited? delimiter rest).map fun (text, rest) => (c :: text, rest)

def control? : Char → Option Char
  | 'n' => some '\n'
  | 't' => some '\t'
  | 'r' => some '\r'
  | 'f' => some '\x0c'
  | 'v' => some '\x0b'
  | 'a' => some '\x07'
  | _ => none

def withControls : List Char → List Char
  | '\\' :: c :: rest =>
    match control? c with
    | some control => control :: withControls rest
    | none => '\\' :: c :: withControls rest
  | c :: rest => c :: withControls rest
  | [] => []

def pattern (extended ignoreCase : Bool) (text rest : List Char) : Except Mistake Pattern :=
  let grammar := if extended then Pattern.Grammar.extended else .basic
  match Pattern.read { grammar, ignoreCase } (bytes (withControls text)) with
  | .ok pattern => .ok pattern
  | .error mistake => .error ⟨mistake.text, rest.length⟩

def address? (extended : Bool) (text : List Char) :
    Except Mistake (Option Address × List Char) := do
  let readPattern (delimiter : Char) (text : List Char) :
      Except Mistake (Option Address × List Char) := do
    match delimited? delimiter text with
    | none => fail "unterminated address regex" []
    | some (inside, rest) =>
      let (ignoreCase, rest) := match rest with
        | 'I' :: rest => (true, rest)
        | rest => (false, rest)
      return (some (.pattern (← pattern extended ignoreCase inside rest)), rest)
  match text with
  | '$' :: rest => return (some .last, rest)
  | '/' :: rest => readPattern '/' rest
  | '\\' :: delimiter :: rest => readPattern delimiter rest
  | _ =>
    let digits := text.takeWhile Char.isDigit
    let rest := text.drop digits.length
    if digits.isEmpty then return (none, text)
    match rest with
    | '~' :: rest =>
      let step := rest.takeWhile Char.isDigit
      return (some (.every (number digits) (number step)), rest.drop step.length)
    | rest => return (some (.line (number digits)), rest)

def selection (extended : Bool) (text : List Char) : Except Mistake (Selection × List Char) := do
  let (first, rest) ← address? extended text
  let rest := rest.dropWhile isSpace
  let (stop, rest) ← match first, rest with
    | some _, ',' :: rest => do
      match rest.dropWhile isSpace with
      | '+' :: rest =>
        let digits := rest.takeWhile Char.isDigit
        pure (some (RangeEnd.after (number digits)), rest.drop digits.length)
      | rest =>
        match ← address? extended rest with
        | (some second, rest) => pure (some (.address second), rest)
        | (none, rest) => fail "unexpected `,'" rest
    | _, rest => pure (none, rest)
  match rest.dropWhile isSpace with
  | '!' :: rest =>
    return ({ first, stop, negated := true }, rest.dropWhile fun c => isSpace c || c = '!')
  | rest => return ({ first, stop }, rest)

def pieces : List Char → List Piece
  | [] => []
  | '&' :: rest => .whole :: pieces rest
  | '\\' :: c :: rest =>
    if c.isDigit then .group (c.toNat - '0'.toNat) :: pieces rest
    else .text (bytes [(control? c).getD c]) :: pieces rest
  | c :: rest => .text (bytes [c]) :: pieces rest

def flags (ignoreCase : Bool) (substitution : Substitution) :
    List Char → Except Mistake ((Bool × Substitution) × List Char)
  | 'g' :: rest => flags ignoreCase { substitution with further := true } rest
  | 'p' :: rest => flags ignoreCase { substitution with print := true } rest
  | 'i' :: rest | 'I' :: rest => flags true substitution rest
  | c :: rest =>
    if c.isDigit then
      let value := c.toNat - '0'.toNat
      let before := if substitution.occurrence = 1 then 0 else substitution.occurrence
      flags ignoreCase { substitution with occurrence := before * 10 + value } rest
    else if isSeparator c || c = '\x7d' || c = '#' then
      .ok ((ignoreCase, substitution), c :: rest)
    else fail "unknown option to `s'" rest
  | [] => .ok ((ignoreCase, substitution), [])

def substitution (extended : Bool) (text : List Char) : Except Mistake (Task × List Char) := do
  let unterminated : Except Mistake (Task × List Char) := fail "unterminated `s' command" []
  match text with
  | [] => unterminated
  | delimiter :: rest =>
    match delimited? delimiter rest with
    | none => unterminated
    | some (searched, rest) =>
      match delimited? delimiter rest with
      | none => unterminated
      | some (replacement, rest) =>
        let start : Substitution := { pattern := .nothing, replacement := pieces replacement }
        let ((ignoreCase, found), rest) ← flags false start rest
        let pattern ← pattern extended ignoreCase searched rest
        return (.substitute { found with pattern }, rest)

def characters : List Char → List Char
  | '\\' :: c :: rest => (control? c).getD c :: characters rest
  | c :: rest => c :: characters rest
  | [] => []

def transliteration (text : List Char) : Except Mistake (Task × List Char) := do
  let unterminated : Except Mistake (Task × List Char) := fail "unterminated `y' command" []
  match text with
  | [] => unterminated
  | delimiter :: rest =>
    match delimited? delimiter rest with
    | none => unterminated
    | some (source, rest) =>
      match delimited? delimiter rest with
      | none => unterminated
      | some (target, rest) =>
        let source := bytes (characters source)
        let target := bytes (characters target)
        if source.length ≠ target.length then
          fail "strings for `y' command are different lengths" rest
        else return (.transliterate (source.zip target), rest)

def lines : List Char → List Char × List Char
  | [] => ([], [])
  | '\n' :: rest => ([], rest)
  | ['\\'] => ([], [])
  | '\\' :: c :: rest => let (text, rest) := lines rest; (c :: text, rest)
  | c :: rest => let (text, rest) := lines rest; (c :: text, rest)

def addedText (task : List UInt8 → Task) (text : List Char) : Except Mistake (Task × List Char) :=
  let start := match text.dropWhile isSpace with
    | '\\' :: rest =>
      match rest.dropWhile isSpace with
      | '\n' :: rest => rest
      | rest => rest
    | rest => rest
  if text.all isSpace then fail "expected \\ after `a', `c' or `i'" []
  else
    let (text, rest) := lines start
    .ok (task (bytes text ++ [newline]), rest)

def ended (task : Task) (text : List Char) : Except Mistake (Task × List Char) :=
  match text.dropWhile isSpace with
  | [] => .ok (task, [])
  | c :: rest =>
    if c = '\n' || c = ';' then .ok (task, rest)
    else if c = '\x7d' || c = '#' then .ok (task, c :: rest)
    else fail "extra characters after command" rest

def name (task : String → Task) (text : List Char) : Except Mistake (Task × List Char) :=
  let text := text.dropWhile isSpace
  let word := text.takeWhile fun c => !(isSeparator c || c = '\x7d')
  ended (task (String.ofList word)) (text.drop word.length)

def task (extended : Bool) (text : List Char) : Except Mistake (Task × List Char) := do
  let quit (silently : Bool) (rest : List Char) : Except Mistake (Task × List Char) :=
    let rest := rest.dropWhile isSpace
    let digits := rest.takeWhile Char.isDigit
    ended (.quit (number digits) silently) (rest.drop digits.length)
  match text with
  | [] => fail "missing command" []
  | c :: rest =>
    match c with
    | 'p' => ended .print rest
    | 'P' => ended .printFirst rest
    | '=' => ended .printNumber rest
    | 'd' => ended .delete rest
    | 'D' => ended .deleteFirst rest
    | 'q' => quit false rest
    | 'Q' => quit true rest
    | 'n' => ended .next rest
    | 'N' => ended .joinNext rest
    | 'h' => ended .hold rest
    | 'H' => ended .holdMore rest
    | 'g' => ended .get rest
    | 'G' => ended .getMore rest
    | 'x' => ended .exchange rest
    | 'a' => addedText .append rest
    | 'i' => addedText .insert rest
    | 'c' => addedText .change rest
    | ':' => name .label rest
    | 'b' => name .branch rest
    | 't' => name .branchIfReplaced rest
    | 's' => do
      let (task, rest) ← substitution extended rest
      ended task rest
    | 'y' => do
      let (task, rest) ← transliteration rest
      ended task rest
    | c => fail ("unknown command: `" ++ c.toString ++ "'") rest

def commands (extended inBlock : Bool) : Nat → List Char → Except Mistake (List Command × List Char)
  | 0, text => .ok ([], text)
  | bound + 1, text => do
    match text.dropWhile isSeparator with
    | [] => if inBlock then .error ⟨"unmatched `\x7b'", 0⟩ else return ([], [])
    | '#' :: rest => commands extended inBlock bound (rest.dropWhile (· ≠ '\n'))
    | text =>
      let (selection, rest) ← selection extended text
      match rest with
      | '\x7d' :: rest =>
        if !inBlock then fail "unexpected `\x7d'" rest
        else if selection.first.isSome then fail "\x7d doesn't want any addresses" rest
        else
          let ((), rest) ← (ended .print rest).map fun (_, rest) => ((), rest)
          return ([], rest)
      | '\x7b' :: rest =>
        let (body, rest) ← commands extended true bound rest
        let (others, rest) ← commands extended inBlock bound rest
        return (⟨selection, .block body.length⟩ :: body ++ others, rest)
      | rest =>
        let (task, rest) ← task extended rest
        let (others, rest) ← commands extended inBlock bound rest
        return (⟨selection, task⟩ :: others, rest)

end Read

def readScript (extended : Bool) (text : String) : Except String (List Command) :=
  let characters := text.toList
  match Read.commands extended false (characters.length + 2) characters with
  | .ok (commands, _) => .ok commands
  | .error mistake =>
    let position := if mistake.message.startsWith "unmatched" then 0
      else characters.length - mistake.left
    .error ("-e expression #1, char " ++ toString position ++ ": " ++ mistake.message)

end PipelineShell.Utility.Editor
