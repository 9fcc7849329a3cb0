/-!
# Terminal input

A terminal hands its input over in lines and lets the last one be edited. What is typed is turned
into the pieces that single reads return; an end-of-file character ends a piece without being part
of it, and a piece without any bytes is read as the end of the input.
-/

namespace PipelineShell.Host.Terminal

def endOfFile : UInt8 := 0x04
def carriageReturn : UInt8 := 0x0d
def newline : UInt8 := 0x0a
def erase : UInt8 := 0x7f
def eraseWord : UInt8 := 0x17
def eraseLine : UInt8 := 0x15
def literalNext : UInt8 := 0x16
def start : UInt8 := 0x11
def stop : UInt8 := 0x13

def isInterrupt (byte : UInt8) : Bool := byte == 0x03 || byte == 0x1c || byte == 0x1a

def isWordByte (byte : UInt8) : Bool :=
  (0x30 ≤ byte && byte ≤ 0x39) || (0x41 ≤ byte && byte ≤ 0x5a) || (0x61 ≤ byte && byte ≤ 0x7a) ||
    byte == 0x5f

def withoutWord (line : List UInt8) : List UInt8 :=
  (line.dropWhile fun byte => !isWordByte byte).dropWhile isWordByte

def piecesFrom (line : List UInt8) : List UInt8 → List (List UInt8)
  | [] => []
  | byte :: rest =>
    if byte == endOfFile then line.reverse :: piecesFrom [] rest
    else if byte == newline || byte == carriageReturn then
      (newline :: line).reverse :: piecesFrom [] rest
    else if byte == erase then piecesFrom line.tail rest
    else if byte == eraseWord then piecesFrom (withoutWord line) rest
    else if byte == eraseLine || isInterrupt byte then piecesFrom [] rest
    else if byte == start || byte == stop then piecesFrom line rest
    else if byte == literalNext then
      match rest with
      | literal :: rest => piecesFrom (literal :: line) rest
      | [] => []
    else piecesFrom (byte :: line) rest

def pieces (typed : List UInt8) : List ByteArray :=
  (piecesFrom [] typed).map fun piece => ⟨piece.toArray⟩

end PipelineShell.Host.Terminal
