import PipelineShell.Script.Command

/-!
# Reading the text of a script

A script is read as it comes in: a text that may be continued is `incomplete` where it ends too
early, and the same text at the end of the script is a mistake.
-/

namespace PipelineShell.Script

structure Input where
  text : List Char
  line : Nat
  final : Bool
  aliases : List (String × String) := []
  active : List (String × Nat) := []

inductive SyntaxFailure
  | incomplete
  | wrong (line : Nat) (message : String)

abbrev Reader := StateT Input (Except SyntaxFailure)

namespace Reader

def fail {α : Type} (message : String) : Reader α := do
  throw (.wrong (← get).line message)

def rest : Reader (List Char) := do
  let input ← get
  if input.text.isEmpty && !input.final then throw .incomplete
  return input.text

def drop (count : Nat) : Reader Unit :=
  modify fun input =>
    let passed := input.text.take count
    { input with
      text := input.text.drop count
      line := input.line + passed.countP (· = '\n') }

def isBlank (c : Char) : Bool := c = ' ' || c = '\t'

def isDelimiter (c : Char) : Bool :=
  isBlank c || c = '\n' || c ∈ [';', '&', '|', '<', '>', '(', ')']

def skipBlanks : Nat → Reader Unit
  | 0 => return
  | bound + 1 => do
    match ← rest with
    | '\\' :: '\n' :: _ =>
      drop 2
      skipBlanks bound
    | ['\\'] => if (← get).final then return else throw .incomplete
    | '#' :: text =>
      drop (1 + (text.takeWhile (· ≠ '\n')).length)
      skipBlanks bound
    | c :: _ =>
      if isBlank c then
        drop 1
        skipBlanks bound
      else return
    | [] => return

def skip : Reader Unit := do
  skipBlanks ((← get).text.length + 1)

inductive Token
  | endOfFile
  | newline
  | operator (text : String)
  | redirection
  | word (text : List Char)
deriving DecidableEq

def operators : List String := ["&&", "||", ";;", ";", "&", "|", "(", ")"]

def peek : Reader Token := do
  skip
  match ← rest with
  | [] => return .endOfFile
  | '\n' :: _ => return .newline
  | text =>
    let leading := text.takeWhile fun c => !isDelimiter c
    let after := text.drop leading.length
    let mayGoOn := match after with
      | [] => true
      | [c] => !isBlank c && c ≠ '\n'
      | _ => false
    if mayGoOn && !(← get).final then throw .incomplete
    if !leading.isEmpty then
      match after with
      | c :: _ =>
        if (c = '<' || c = '>') && leading.all Char.isDigit then return .redirection
        else return .word leading
      | [] => return .word leading
    match operators.find? fun operator => operator.toList.isPrefixOf text with
    | some operator => return .operator operator
    | none => return .redirection

def Token.name : Token → String
  | endOfFile => "end of file"
  | newline => "newline"
  | operator text => "\"" ++ text ++ "\""
  | redirection => "redirection"
  | word _ => "word"

def reserved : List String := [
  "if", "then", "else", "elif", "fi", "do", "done", "case", "esac", "while", "until", "for", "\x7b",
  "\x7d", "!", "in"]

def keyword? (token : Token) : Option String :=
  match token with
  | .word text => reserved.find? (·.toList == text)
  | _ => none

def shownName (token : Token) : String :=
  match keyword? token with
  | some word => "\"" ++ word ++ "\""
  | none => token.name

def refuse {α : Type} (name : String) (expecting : Option String) : Reader α :=
  fail ("Syntax error: " ++ name ++ " unexpected" ++
    expecting.elim "" fun expected => " (expecting " ++ expected ++ ")")

def unexpected {α : Type} (expecting : Option String) : Reader α := do
  refuse (shownName (← peek)) expecting

def expect (text : String) : Reader Unit := do
  let token ← peek
  if keyword? token = some text || token = .operator text then drop text.length
  else unexpected (some ("\"" ++ text ++ "\""))

def expandAliases : Nat → Reader Unit
  | 0 => return
  | bound + 1 => do
    match ← peek with
    | .word text =>
      let input ← get
      let name := String.ofList text
      let active := input.active.filter fun (_, after) => after < input.text.length
      if (keyword? (.word text)).isSome || active.any (·.1 = name) then return
      match input.aliases.lookup name with
      | none => return
      | some value =>
        let after := input.text.drop text.length
        set { input with
          text := value.toList ++ after, active := (name, after.length) :: active }
        expandAliases bound
    | _ => return

def peekCommand : Reader Token := do
  let aliases := (← get).aliases
  if !aliases.isEmpty then expandAliases (aliases.length + 1)
  peek

def skipNewlines : Nat → Reader Unit
  | 0 => return
  | bound + 1 => do
    if (← peek) = .newline then
      drop 1
      skipNewlines bound

def newlines : Reader Unit := do
  skipNewlines ((← get).text.length + 1)

def isNameStart (c : Char) : Bool := c.isAlpha || c = '_'

def isNameChar (c : Char) : Bool := c.isAlphanum || c = '_'

def isName (text : List Char) : Bool :=
  match text with
  | c :: rest => isNameStart c && rest.all isNameChar
  | [] => false

def isSpecial (c : Char) : Bool := c ∈ ['@', '*', '#', '?', '-', '$', '!']

/-- Reads the text of a here-document, which begins after the current line, and takes it out of the
input. -/
def takeHere (stripTabs : Bool) (delimiter : List Char) : Reader (List Char) := do
  let input ← get
  let line := input.text.takeWhile (· ≠ '\n')
  let after := (input.text.drop line.length).drop 1
  match body (after.length + 1) [] after with
  | some (text, remaining) =>
    set { input with text := line ++ '\n' :: remaining }
    return text
  | none =>
    if !input.final then throw .incomplete
    set { input with text := line ++ ['\n'] }
    return after
where
  body : Nat → List Char → List Char → Option (List Char × List Char)
    | 0, _, _ => none
    | bound + 1, found, text =>
      let line := text.takeWhile (· ≠ '\n')
      let shown := if stripTabs then line.dropWhile (· = '\t') else line
      match text.drop line.length with
      | '\n' :: rest =>
        if shown = delimiter then some (found, rest)
        else body bound (found ++ shown ++ ['\n']) rest
      | _ => if shown = delimiter && !line.isEmpty then some (found, []) else none

end Reader

end PipelineShell.Script
