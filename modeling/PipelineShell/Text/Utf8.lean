/-!
# UTF-8

Reading bytes as text, one character at a time. `decode?` accepts exactly the well-formed byte
sequences. `decodeLossy` accepts all of them: each maximal part that starts a character without
completing it, and each byte that starts none, is read as U+FFFD.
-/

namespace PipelineShell.Utf8

def isContinuation (low high b : UInt8) : Bool :=
  low ≤ b && b ≤ high

/-- How a character with more than one byte goes on after its first byte: how many bytes follow,
the bounds of the one that comes next, and the bits that the first byte contributes. Later bytes
have the full range. -/
structure Lead where
  following : Nat
  low : UInt8
  high : UInt8
  bits : Nat
deriving Repr, DecidableEq

/-- The bounds of the second byte rule out overlong forms, surrogates and code points above
U+10FFFF. -/
def lead? (b : UInt8) : Option Lead :=
  if 0xc2 ≤ b && b ≤ 0xdf then some ⟨1, 0x80, 0xbf, b.toNat - 0xc0⟩
  else if b == 0xe0 then some ⟨2, 0xa0, 0xbf, 0⟩
  else if b == 0xed then some ⟨2, 0x80, 0x9f, 13⟩
  else if 0xe1 ≤ b && b ≤ 0xef then some ⟨2, 0x80, 0xbf, b.toNat - 0xe0⟩
  else if b == 0xf0 then some ⟨3, 0x90, 0xbf, 0⟩
  else if 0xf1 ≤ b && b ≤ 0xf3 then some ⟨3, 0x80, 0xbf, b.toNat - 0xf0⟩
  else if b == 0xf4 then some ⟨3, 0x80, 0x8f, 4⟩
  else none

/-- Reads the bytes that complete a character. Where one is missing the answer is `none`, with
the rest that starts at the first byte that does not belong to the character. -/
def complete : Nat → UInt8 → UInt8 → Nat → List UInt8 → Option Char × List UInt8
  | 0, _, _, bits, rest => (some (Char.ofNat bits), rest)
  | _ + 1, _, _, _, [] => (none, [])
  | n + 1, low, high, bits, b :: rest =>
    if isContinuation low high b then complete n 0x80 0xbf (bits * 64 + (b.toNat - 0x80)) rest
    else (none, b :: rest)

theorem length_complete_le (n : Nat) (low high : UInt8) (bits : Nat) (bytes : List UInt8) :
    (complete n low high bits bytes).2.length ≤ bytes.length := by
  induction n generalizing low high bits bytes with
  | zero => simp [complete]
  | succ n ih =>
    cases bytes with
    | nil => simp [complete]
    | cons b rest =>
      simp only [complete]
      split
      · exact Nat.le_trans (ih ..) (Nat.le_succ _)
      · simp

def next (b : UInt8) (rest : List UInt8) : Option Char × List UInt8 :=
  if b < 0x80 then (some (Char.ofNat b.toNat), rest)
  else
    match lead? b with
    | some l => complete l.following l.low l.high l.bits rest
    | none => (none, rest)

theorem length_next_le (b : UInt8) (rest : List UInt8) :
    (next b rest).2.length ≤ rest.length := by
  unfold next
  split
  · simp
  · split
    · exact length_complete_le ..
    · simp

def parts : List UInt8 → List (Option Char)
  | [] => []
  | b :: rest => (next b rest).1 :: parts (next b rest).2
termination_by bytes => bytes.length
decreasing_by exact Nat.lt_succ_of_le (length_next_le b rest)

def wellFormed? : List (Option Char) → Option (List Char)
  | [] => some []
  | some c :: rest => (wellFormed? rest).map (c :: ·)
  | none :: _ => none

def replacement : Char := '\ufffd'

def replaced (parts : List (Option Char)) : List Char := parts.map (·.getD replacement)

/-- The characters of a byte sequence, with the replacement character for each ill-formed part. -/
def decodeLossy (bytes : List UInt8) : List Char := replaced (parts bytes)

def decode? (bytes : List UInt8) : Option (List Char) := wellFormed? (parts bytes)

def encode (text : List Char) : ByteArray :=
  (String.ofList text).toUTF8

/-- A truncated character is one ill-formed part, a surrogate three. -/
example : decodeLossy [0xf0, 0x9f, 0x98, 0x20] = ['\ufffd', ' '] ∧
    decodeLossy [0xed, 0xa0, 0x80] = ['\ufffd', '\ufffd', '\ufffd'] ∧
    decodeLossy [0xc3, 0xa9] = ['é'] := by
  decide +kernel

end PipelineShell.Utf8
