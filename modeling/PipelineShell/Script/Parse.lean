import PipelineShell.Script.Reader

namespace PipelineShell.Script

namespace Reader

inductive Mode
  | word
  | double
  | brace (inDouble : Bool)
  | arithmetic (depth : Nat)
  | here
deriving DecidableEq

def Mode.isQuoted : Mode → Bool
  | word | brace false => false
  | _ => true

def isEscapable (mode : Mode) (c : Char) : Bool :=
  c = '$' || c = '\x60' || c = '\\' || (c = '"' && mode ≠ .here) || (c = '}' && mode = .brace true)

def Mode.missing : Mode → String
  | word | double | here | brace true => "Syntax error: Unterminated quoted string"
  | brace false => "Syntax error: Missing '\x7d'"
  | arithmetic _ => "Syntax error: Missing '))'"

def joinTexts : List Part → List Part
  | .plain a :: .plain b :: rest => joinTexts (.plain (a ++ b) :: rest)
  | .quoted a :: .quoted b :: rest => joinTexts (.quoted (a ++ b) :: rest)
  | part :: rest => part :: joinTexts rest
  | [] => []
termination_by parts => parts.length

def backquoted (inDouble : Bool) : List Char → Option (List Char × Nat)
  | [] => none
  | '\x60' :: _ => some ([], 1)
  | '\\' :: c :: rest =>
    (backquoted inDouble rest).map fun (text, length) =>
      if c = '\x60' || c = '\\' || c = '$' || (c = '"' && inDouble) then (c :: text, length + 2)
      else ('\\' :: c :: text, length + 2)
  | c :: rest => (backquoted inDouble rest).map fun (text, length) => (c :: text, length + 1)

def literalText? : List Part → Option (List Char)
  | [] => some []
  | .plain text :: rest | .quoted text :: rest => (literalText? rest).map (text ++ ·)
  | .doubled parts :: rest => do
    let inner ← literalTextInside? parts
    return inner ++ (← literalText? rest)
  | _ => none
where
  literalTextInside? : List Part → Option (List Char)
    | [] => some []
    | .plain text :: rest | .quoted text :: rest => (literalTextInside? rest).map (text ++ ·)
    | _ => none

def hasQuotes (parts : List Part) : Bool :=
  parts.any fun part => match part with
    | .quoted _ | .doubled _ => true
    | _ => false

def closes (token : Token) : Bool :=
  match token with
  | .endOfFile | .operator ")" | .operator ";;" => true
  | _ =>
    match keyword? token with
    | some word => word ∈ ["then", "else", "elif", "fi", "do", "done", "esac", "\x7d"]
    | none => false

mutual

def readParts (mode : Mode) : Nat → Reader (List Part)
  | 0 => fail "Syntax error: too deep"
  | bound + 1 => do
    let one (part : Part) (length : Nat) : Reader (List Part) := do
      drop length
      return part :: (← readParts mode bound)
    let text (c : Char) : Part := if mode.isQuoted then .quoted [c] else .plain [c]
    match ← rest with
    | [] => if mode = .word || mode = .here then return [] else fail mode.missing
    | c :: rest =>
      match mode, c with
      | .double, '"' => return []
      | .brace _, '}' => return []
      | .arithmetic depth, '(' =>
        drop 1
        return text '(' :: (← readParts (.arithmetic (depth + 1)) bound)
      | .arithmetic 0, ')' => return []
      | .arithmetic (depth + 1), ')' =>
        drop 1
        return text ')' :: (← readParts (.arithmetic depth) bound)
      | _, _ =>
        if mode = .word && isDelimiter c then return []
        match c with
        | '\\' =>
          match rest with
          | [] => if (← get).final then one (text '\\') 1 else throw .incomplete
          | '\n' :: _ =>
            drop 2
            readParts mode bound
          | next :: _ =>
            if !mode.isQuoted || isEscapable mode next then one (.quoted [next]) 2
            else one (text '\\') 1
        | '\'' =>
          if mode.isQuoted then one (text c) 1
          else
            let inside := rest.takeWhile (· ≠ '\'')
            if inside.length = rest.length then
              if (← get).final then fail Mode.double.missing else throw .incomplete
            one (.quoted inside) (inside.length + 2)
        | '"' =>
          let isText := match mode with
            | .here | .double | .arithmetic _ => true
            | _ => false
          if isText then one (text c) 1
          else
            drop 1
            let inside ← readParts .double bound
            drop 1
            return .doubled (joinTexts inside) :: (← readParts mode bound)
        | '\x60' =>
          match backquoted mode.isQuoted rest with
          | none =>
            if (← get).final then fail "Syntax error: EOF in backquote substitution"
            else throw .incomplete
          | some (inside, length) =>
            let line := (← get).line
            drop (length + 1)
            let inner : Input :=
              { text := inside, line, final := true, aliases := (← get).aliases }
            match (readAnyItems bound).run inner with
            | .ok (body, _) => return .command body :: (← readParts mode bound)
            | .error failure => throw failure
        | '$' =>
          drop 1
          let part ← readDollar mode bound
          return part :: (← readParts mode bound)
        | _ => one (text c) 1

def readDollar (mode : Mode) : Nat → Reader Part
  | 0 => fail "Syntax error: too deep"
  | bound + 1 => do
    let text (c : Char) : Part := if mode.isQuoted then .quoted [c] else .plain [c]
    match ← rest with
    | ['('] =>
      drop 1
      if (← get).final then unexpected (some "\")\"") else throw .incomplete
    | '(' :: '(' :: _ =>
      drop 2
      let parts ← readParts (.arithmetic 0) bound
      match ← rest with
      | ')' :: ')' :: _ =>
        drop 2
        return .arithmetic (joinTexts parts)
      | [')'] => if (← get).final then fail (Mode.arithmetic 0).missing else throw .incomplete
      | _ => fail (Mode.arithmetic 0).missing
    | '(' :: _ =>
      drop 1
      let body ← readAnyItems bound
      expect ")"
      return .command body
    | '{' :: _ =>
      drop 1
      readBrace mode bound
    | c :: rest =>
      if isNameStart c then
        let name := (c :: rest).takeWhile isNameChar
        if name.length = rest.length + 1 && !(← get).final then throw .incomplete
        drop name.length
        return .parameter (String.ofList name) .value
      else if c.isDigit || isSpecial c then
        drop 1
        return .parameter c.toString .value
      else return text '$'
    | [] => return text '$'

def readBrace (mode : Mode) : Nat → Reader Part
  | 0 => fail "Syntax error: too deep"
  | bound + 1 => do
    let input ← get
    if !input.final && !input.text.contains '}' then throw .incomplete
    let takeName (text : List Char) : List Char :=
      match text with
      | c :: rest =>
        if c.isDigit then text.takeWhile Char.isDigit
        else if isSpecial c then [c]
        else (c :: rest).takeWhile isNameChar
      | [] => []
    let inner : Mode := .brace mode.isQuoted
    match input.text with
    | '#' :: rest =>
      let name := takeName rest
      if !name.isEmpty && (rest.drop name.length).head? = some '}' then
        drop (name.length + 2)
        return .parameter (String.ofList name) .length
      else readUse inner ['#'] bound
    | text => readUse inner (takeName text) bound

def readUse (mode : Mode) (name : List Char) : Nat → Reader Part
  | 0 => fail "Syntax error: too deep"
  | bound + 1 => do
    drop name.length
    let finish (use : List Part → Use) (mode : Mode) (length : Nat) : Reader Part := do
      drop length
      let word ← readParts mode bound
      drop 1
      return .parameter (String.ofList name) (use (joinTexts word))
    let pattern : Mode := .brace false
    match (← get).text with
    | '}' :: _ =>
      drop 1
      return .parameter (String.ofList name) (if name.isEmpty then .invalid else .value)
    | ':' :: '-' :: _ => finish (.orElse true) mode 2
    | ':' :: '=' :: _ => finish (.orAssign true) mode 2
    | ':' :: '?' :: _ => finish (.orFail true) mode 2
    | ':' :: '+' :: _ => finish (.instead true) mode 2
    | '-' :: _ => finish (.orElse false) mode 1
    | '=' :: _ => finish (.orAssign false) mode 1
    | '?' :: _ => finish (.orFail false) mode 1
    | '+' :: _ => finish (.instead false) mode 1
    | '%' :: '%' :: _ => finish (.trim false true) pattern 2
    | '%' :: _ => finish (.trim false false) pattern 1
    | '#' :: '#' :: _ => finish (.trim true true) pattern 2
    | '#' :: _ => finish (.trim true false) pattern 1
    | _ => finish (fun _ => .invalid) mode 0

def readRedirect : Nat → Reader Redirect
  | 0 => fail "Syntax error: too deep"
  | bound + 1 => do
    let digits := (← rest).takeWhile Char.isDigit
    drop digits.length
    let number := digits.foldl (fun value c => value * 10 + (c.toNat - '0'.toNat)) 0
    let descriptor (default : Nat) : Nat := if digits.isEmpty then default else number
    let target (length : Nat) : Reader (List Part) := do
      drop length
      match ← peek with
      | .word _ => return joinTexts (← readParts .word bound)
      | _ => unexpected none
    let here (length : Nat) (stripTabs : Bool) : Reader Redirect := do
      let parts ← target length
      let delimiter := (literalText? parts).getD []
      let body ← takeHere stripTabs delimiter
      if hasQuotes parts then return .text (descriptor 0) [.quoted body]
      else
        let inner : Input :=
          { text := body, line := (← get).line, final := true, aliases := (← get).aliases }
        match (readParts .here bound).run inner with
        | .ok (parts, _) => return .text (descriptor 0) (joinTexts parts)
        | .error failure => throw failure
    match (← get).text with
    | '<' :: '<' :: '-' :: _ => here 3 true
    | '<' :: '<' :: _ => here 2 false
    | '<' :: '&' :: _ => return .duplicate (descriptor 0) (← target 2)
    | '<' :: '>' :: _ => return .file (descriptor 0) .inputOutput (← target 2)
    | '<' :: _ => return .file (descriptor 0) .input (← target 1)
    | '>' :: '>' :: _ => return .file (descriptor 1) .append (← target 2)
    | '>' :: '&' :: _ => return .duplicate (descriptor 1) (← target 2)
    | '>' :: '|' :: _ => return .file (descriptor 1) .overwrite (← target 2)
    | _ => return .file (descriptor 1) .output (← target 1)

def readRedirects : Nat → Reader (List Redirect)
  | 0 => return []
  | bound + 1 => do
    match ← peek with
    | .redirection =>
      let first ← readRedirect bound
      return first :: (← readRedirects bound)
    | _ => return []

def readSimple (line : Nat) (assignments : List (String × List Part))
    (words : List (List Part)) (redirects : List Redirect) : Nat → Reader Command
  | 0 => fail "Syntax error: too deep"
  | bound + 1 => do
    let token ← if words.isEmpty then peekCommand else peek
    match token with
    | .redirection =>
      let redirect ← readRedirect bound
      readSimple line assignments words (redirects ++ [redirect]) bound
    | .word text =>
      let name := text.takeWhile isNameChar
      let isAssignment :=
        words.isEmpty && isName name && (text.drop name.length).head? = some '='
      if isAssignment then
        drop (name.length + 1)
        let value := joinTexts (← readParts .word bound)
        readSimple line (assignments ++ [(String.ofList name, value)]) words redirects bound
      else
        let word := joinTexts (← readParts .word bound)
        readSimple line assignments (words ++ [word]) redirects bound
    | .operator "(" =>
      match assignments, words, redirects with
      | [], [word], [] =>
        drop 1
        if (← peek) ≠ .operator ")" then refuse (← peek).name (some "\")\"")
        drop 1
        newlines
        match literalText? word with
        | some name =>
          if isName name && !specialNames.contains (String.ofList name) then
            return .define (String.ofList name) (← readCommand bound)
          else fail "Syntax error: Bad function name"
        | none => fail "Syntax error: Bad function name"
      | _, _, _ => unexpected none
    | _ => return .simple line assignments words redirects

def readBranches : Nat → Reader (List (List Item × List Item) × List Item)
  | 0 => fail "Syntax error: too deep"
  | bound + 1 => do
    let condition ← readItems bound
    expect "then"
    let body ← readItems bound
    match keyword? (← peek) with
    | some "elif" =>
      drop 4
      let (branches, otherwise) ← readBranches bound
      return ((condition, body) :: branches, otherwise)
    | some "else" =>
      drop 4
      let otherwise ← readItems bound
      return ([(condition, body)], otherwise)
    | _ => return ([(condition, body)], [])

def readWords : Nat → Reader (List (List Part))
  | 0 => return []
  | bound + 1 => do
    match ← peek with
    | .word _ =>
      let word := joinTexts (← readParts .word bound)
      return word :: (← readWords bound)
    | _ => return []

/-- Reads the patterns of a clause up to the closing parenthesis. Whatever stands in the place of
a pattern is taken for one. -/
def readPatterns : Nat → Reader (List (List Part))
  | 0 => return []
  | bound + 1 => do
    let pattern ← match ← peek with
      | .word _ => do pure (joinTexts (← readParts .word bound))
      | .endOfFile => pure []
      | .operator text => do
        drop text.length
        pure []
      | .newline | .redirection => do
        drop 1
        pure []
    match ← peek with
    | .operator "|" =>
      drop 1
      return pattern :: (← readPatterns bound)
    | .operator ")" =>
      drop 1
      return [pattern]
    | token => refuse token.name (some "\")\"")

def readClauses : Nat → Reader (List (List (List Part) × List Item))
  | 0 => return []
  | bound + 1 => do
    newlines
    let token ← peek
    if keyword? token = some "esac" then return []
    if token = .operator "(" then drop 1
    let patterns ← readPatterns bound
    let body ← readAnyItems bound
    newlines
    match ← peek with
    | .operator ";;" =>
      drop 2
      return (patterns, body) :: (← readClauses bound)
    | token =>
      if keyword? token = some "esac" then return [(patterns, body)]
      else unexpected (some "\";;\"")

def readLoop : Nat → Reader (List Item)
  | 0 => fail "Syntax error: too deep"
  | bound + 1 => do
    newlines
    expect "do"
    let body ← readItems bound
    expect "done"
    return body

def readCommand : Nat → Reader Command
  | 0 => fail "Syntax error: too deep"
  | bound + 1 => do
    let token ← peekCommand
    match token, keyword? token with
    | _, some "\x7b" =>
      drop 1
      let body ← readItems bound
      expect "\x7d"
      return .group body (← readRedirects bound)
    | .operator "(", _ =>
      drop 1
      let body ← readItems bound
      expect ")"
      return .subshell body (← readRedirects bound)
    | _, some "if" =>
      drop 2
      let (branches, otherwise) ← readBranches bound
      expect "fi"
      return .choice branches otherwise (← readRedirects bound)
    | _, some "while" | _, some "until" =>
      drop 5
      let condition ← readItems bound
      expect "do"
      let body ← readItems bound
      expect "done"
      return .repeated (keyword? token = some "until") condition body (← readRedirects bound)
    | _, some "for" =>
      drop 3
      match ← peek with
      | .word name =>
        if !isName name then fail "Syntax error: Bad for loop variable"
        drop name.length
        newlines
        let words ←
          if keyword? (← peek) = some "in" then
            drop 2
            let words ← readWords bound
            let token ← peek
            if token ≠ .newline && token ≠ .operator ";" then refuse token.name none
            pure (some words)
          else pure none
        if (← peek) = .operator ";" then drop 1
        let body ← readLoop bound
        return .each (String.ofList name) words body (← readRedirects bound)
      | _ => fail "Syntax error: Bad for loop variable"
    | _, some "case" =>
      drop 4
      match ← peek with
      | .word _ =>
        let subject := joinTexts (← readParts .word bound)
        newlines
        expect "in"
        let clauses ← readClauses bound
        expect "esac"
        return .select subject clauses (← readRedirects bound)
      | token => refuse token.name (some "word")
    | .word _, none | .redirection, _ => readSimple (← get).line [] [] [] bound
    | _, _ => unexpected none

def readCommands : Nat → Reader (List Command)
  | 0 => fail "Syntax error: too deep"
  | bound + 1 => do
    let command ← readCommand bound
    if (← peek) = .operator "|" then
      drop 1
      newlines
      return command :: (← readCommands bound)
    else return [command]

def readChain : Nat → Reader Chain
  | 0 => fail "Syntax error: too deep"
  | bound + 1 => do
    if keyword? (← peek) = some "!" then
      drop 1
      return .mk true (← readCommands bound)
    else return .mk false (← readCommands bound)

def readJoined : Nat → Reader (List (Bool × Chain))
  | 0 => return []
  | bound + 1 => do
    let token ← peek
    if token = .operator "&&" || token = .operator "||" then
      drop 2
      newlines
      let chain ← readChain bound
      return (token = .operator "&&", chain) :: (← readJoined bound)
    else return []

def readItem : Nat → Reader Item
  | 0 => fail "Syntax error: too deep"
  | bound + 1 => do
    let first ← readChain bound
    let joined ← readJoined bound
    let background := (← peek) = .operator "&"
    if background then drop 1
    return .mk first joined background

/-- Reads items up to a word or operator that cannot begin one. There is at least one, unless the
script ends. -/
def readItems : Nat → Reader (List Item)
  | 0 => fail "Syntax error: too deep"
  | bound + 1 => do
    newlines
    if (← peekCommand) = .endOfFile then return []
    let item ← readItem bound
    let separated ← match ← peek with
      | .operator ";" =>
        if item.isBackground then pure true
        else
          drop 1
          pure true
      | .newline => pure true
      | _ => pure item.isBackground
    newlines
    if closes (← peekCommand) || !separated then return [item]
    return item :: (← readItems bound)

def readAnyItems : Nat → Reader (List Item)
  | 0 => fail "Syntax error: too deep"
  | bound + 1 => do
    newlines
    if closes (← peekCommand) then return [] else readItems bound

end

def readLineItems (bound : Nat) : Nat → Reader (List Item)
  | 0 => fail "Syntax error: too deep"
  | items + 1 => do
    let item ← readItem bound
    let token ← peek
    if token = .operator ";" && !item.isBackground then drop 1
    match token, ← peek with
    | _, .newline =>
      drop 1
      return [item]
    | _, .endOfFile => return [item]
    | .operator ";", _ => return item :: (← readLineItems bound items)
    | _, _ =>
      if item.isBackground then return item :: (← readLineItems bound items)
      else unexpected none

/-- Reads the next line of a script with all lines that belong to its commands, or `none` at the
end of the script. -/
def readLine : Reader (Option (List Item)) := do
  match ← peek with
  | .endOfFile => return none
  | .newline =>
    drop 1
    return some []
  | _ =>
    let input ← get
    let replaced := (input.aliases.map (·.2.length)).foldl (· + ·) input.text.length
    let bound := 8 * replaced + 64
    return some (← readLineItems bound bound)

end Reader

end PipelineShell.Script
