namespace PipelineShell.Utility.Escape

inductive Octal
  | direct
  | afterZero
  | both
deriving DecidableEq

structure Dialect where
  octal : Octal
  escape : Bool
  hexadecimal : Bool
  ends : Bool
  quote : Bool

def isOctal (c : Char) : Bool := '0' ≤ c && c ≤ '7'

def digitValue (c : Char) : Nat :=
  if c.isDigit then c.toNat - '0'.toNat
  else if 'a' ≤ c && c ≤ 'f' then c.toNat - 'a'.toNat + 10
  else if 'A' ≤ c && c ≤ 'F' then c.toNat - 'A'.toNat + 10
  else 0

def isHex (c : Char) : Bool := c.isDigit || ('a' ≤ c && c ≤ 'f') || ('A' ≤ c && c ≤ 'F')

def digits (isDigit : Char → Bool) (most : Nat) (text : List Char) : List Char :=
  (text.take most).takeWhile isDigit

def valueOf (base : Nat) (digits : List Char) : Nat :=
  digits.foldl (fun value c => value * base + digitValue c) 0

def bytesOf (c : Char) : List UInt8 := c.toString.toUTF8.toList

/-- The bytes of an escape and how many characters it takes after the backslash; none for the one
that ends the output. -/
inductive Piece
  | bytes (bytes : List UInt8) (length : Nat)
  | finish

def letters : List (Char × UInt8) := [
  ('\\', 0x5c), ('a', 0x07), ('b', 0x08), ('f', 0x0c), ('n', 0x0a), ('r', 0x0d), ('t', 0x09),
  ('v', 0x0b)]

def readOctal (text : List Char) (skipped : Nat) : Piece :=
  let found := digits isOctal 3 (text.drop skipped)
  .bytes [UInt8.ofNat (valueOf 8 found)] (skipped + found.length)

def read (dialect : Dialect) (text : List Char) : Piece :=
  match text with
  | [] => .bytes [0x5c] 0
  | c :: rest =>
    match letters.lookup c with
    | some byte => .bytes [byte] 1
    | none =>
      let hex := digits isHex 2 rest
      if c = 'c' && dialect.ends then .finish
      else if c = '"' && dialect.quote then .bytes [0x22] 1
      else if c = 'e' && dialect.escape then .bytes [0x1b] 1
      else if c = 'x' && dialect.hexadecimal && !hex.isEmpty then
        .bytes [UInt8.ofNat (valueOf 16 hex)] (1 + hex.length)
      else if c = '0' && dialect.octal ≠ .direct then readOctal text 1
      else if isOctal c && dialect.octal ≠ .afterZero then readOctal text 0
      else .bytes (0x5c :: bytesOf c) 1

def expandFrom (dialect : Dialect) (skip : Nat) : List Char → List UInt8 × Bool
  | [] => ([], false)
  | c :: rest =>
    match skip with
    | skip + 1 => expandFrom dialect skip rest
    | 0 =>
      if c = '\\' then
        match read dialect rest with
        | .finish => ([], true)
        | .bytes bytes length =>
          let (more, ended) := expandFrom dialect length rest
          (bytes ++ more, ended)
      else
        let (more, ended) := expandFrom dialect 0 rest
        (bytesOf c ++ more, ended)

def expand (dialect : Dialect) (text : String) : List UInt8 × Bool :=
  expandFrom dialect 0 text.toList

end PipelineShell.Utility.Escape
