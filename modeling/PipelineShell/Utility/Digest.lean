import PipelineShell.Utility.Output

namespace PipelineShell.Utility

open PipelineShell.Action Host

/-! ## Cyclic redundancy -/

namespace Crc

def addBit (remainder : UInt32) (bit : Bool) : UInt32 :=
  if (remainder >>> 31 != 0) != bit then (remainder <<< 1) ^^^ 0x04c11db7 else remainder <<< 1

def addByte (remainder : UInt32) (byte : UInt8) : UInt32 :=
  [7, 6, 5, 4, 3, 2, 1, 0].foldl (fun r (place : UInt8) => addBit r (byte >>> place &&& 1 != 0))
    remainder

def lengthBytes : Nat → Nat → List UInt8
  | 0, _ => []
  | bound + 1, n => if n = 0 then [] else n.toUInt8 :: lengthBytes bound (n / 256)

def checksum (data : ByteArray) : UInt32 :=
  let remainder := data.foldl addByte 0
  ~~~ (lengthBytes 16 data.size).foldl addByte remainder

end Crc

/-! ## Digests by blocks -/

namespace Digest

def rotateLeft (word places : UInt32) : UInt32 := (word <<< places) ||| (word >>> (32 - places))

def rotateRight (word places : UInt32) : UInt32 := rotateLeft word (32 - places)

def littleBytes : Nat → Nat → List UInt8
  | 0, _ => []
  | count + 1, n => n.toUInt8 :: littleBytes count (n / 256)

def padded (length : Nat → List UInt8) (data : ByteArray) : ByteArray :=
  let zeros := (119 - data.size % 64) % 64
  data ++ ⟨(0x80 :: List.replicate zeros 0 ++ length (8 * data.size)).toArray⟩

def littleWord (data : ByteArray) (start : Nat) : UInt32 :=
  [3, 2, 1, 0].foldl (fun word i => word <<< 8 ||| (data[start + i]?.getD 0).toUInt32) 0

def bigWord (data : ByteArray) (start : Nat) : UInt32 :=
  [0, 1, 2, 3].foldl (fun word i => word <<< 8 ||| (data[start + i]?.getD 0).toUInt32) 0

def absorb {σ : Type} (take : σ → Nat → σ) (start : σ) (size : Nat) : σ :=
  (List.range (size / 64)).foldl (fun state block => take state (64 * block)) start

def hexadecimal (bytes : List UInt8) : String :=
  String.ofList (bytes.flatMap fun byte =>
    [Nat.digitChar (byte / 16).toNat, Nat.digitChar (byte % 16).toNat])

end Digest

namespace Md5

open Digest

def constants : Array UInt32 := #[
  0xd76aa478, 0xe8c7b756, 0x242070db, 0xc1bdceee, 0xf57c0faf, 0x4787c62a, 0xa8304613, 0xfd469501,
  0x698098d8, 0x8b44f7af, 0xffff5bb1, 0x895cd7be, 0x6b901122, 0xfd987193, 0xa679438e, 0x49b40821,
  0xf61e2562, 0xc040b340, 0x265e5a51, 0xe9b6c7aa, 0xd62f105d, 0x02441453, 0xd8a1e681, 0xe7d3fbc8,
  0x21e1cde6, 0xc33707d6, 0xf4d50d87, 0x455a14ed, 0xa9e3e905, 0xfcefa3f8, 0x676f02d9, 0x8d2a4c8a,
  0xfffa3942, 0x8771f681, 0x6d9d6122, 0xfde5380c, 0xa4beea44, 0x4bdecfa9, 0xf6bb4b60, 0xbebfbc70,
  0x289b7ec6, 0xeaa127fa, 0xd4ef3085, 0x04881d05, 0xd9d4d039, 0xe6db99e5, 0x1fa27cf8, 0xc4ac5665,
  0xf4292244, 0x432aff97, 0xab9423a7, 0xfc93a039, 0x655b59c3, 0x8f0ccc92, 0xffeff47d, 0x85845dd1,
  0x6fa87e4f, 0xfe2ce6e0, 0xa3014314, 0x4e0811a1, 0xf7537e82, 0xbd3af235, 0x2ad7d2bb, 0xeb86d391]

def rotations : List (List UInt32) :=
  [[7, 12, 17, 22], [5, 9, 14, 20], [4, 11, 16, 23], [6, 10, 15, 21]]

structure State where
  a : UInt32 := 0x67452301
  b : UInt32 := 0xefcdab89
  c : UInt32 := 0x98badcfe
  d : UInt32 := 0x10325476

def round (words : Array UInt32) (state : State) (i : Nat) : State :=
  let (mixed, place) := match i / 16 with
    | 0 => ((state.b &&& state.c) ||| (~~~ state.b &&& state.d), i)
    | 1 => ((state.d &&& state.b) ||| (~~~ state.d &&& state.c), 5 * i + 1)
    | 2 => (state.b ^^^ state.c ^^^ state.d, 3 * i + 5)
    | _ => (state.c ^^^ (state.b ||| ~~~ state.d), 7 * i)
  let sum := mixed + state.a + constants[i]?.getD 0 + words[place % 16]?.getD 0
  let turned := rotateLeft sum ((rotations.getD (i / 16) []).getD (i % 4) 0)
  ⟨state.d, state.b + turned, state.b, state.c⟩

def take (data : ByteArray) (state : State) (start : Nat) : State :=
  let words := Array.ofFn fun i : Fin 16 => littleWord data (start + 4 * i)
  let next := (List.range 64).foldl (round words) state
  ⟨state.a + next.a, state.b + next.b, state.c + next.c, state.d + next.d⟩

def digest (data : ByteArray) : String :=
  let data := padded (littleBytes 8) data
  let state := absorb (take data) ({} : State) data.size
  hexadecimal ([state.a, state.b, state.c, state.d].flatMap fun word =>
    littleBytes 4 word.toNat)

end Md5

namespace Sha1

open Digest

structure State where
  a : UInt32 := 0x67452301
  b : UInt32 := 0xefcdab89
  c : UInt32 := 0x98badcfe
  d : UInt32 := 0x10325476
  e : UInt32 := 0xc3d2e1f0

def schedule (data : ByteArray) (start : Nat) : Array UInt32 :=
  (List.range 64).foldl (fun words i =>
    let word (back : Nat) : UInt32 := words[i + 16 - back]?.getD 0
    words.push (rotateLeft (word 3 ^^^ word 8 ^^^ word 14 ^^^ word 16) 1))
    (Array.ofFn fun i : Fin 16 => bigWord data (start + 4 * i))

def round (words : Array UInt32) (state : State) (i : Nat) : State :=
  let (mixed, constant) : UInt32 × UInt32 := match i / 20 with
    | 0 => ((state.b &&& state.c) ||| (~~~ state.b &&& state.d), 0x5a827999)
    | 1 => (state.b ^^^ state.c ^^^ state.d, 0x6ed9eba1)
    | 2 => ((state.b &&& state.c) ||| (state.b &&& state.d) ||| (state.c &&& state.d), 0x8f1bbcdc)
    | _ => (state.b ^^^ state.c ^^^ state.d, 0xca62c1d6)
  let sum := rotateLeft state.a 5 + mixed + state.e + constant + words[i]?.getD 0
  ⟨sum, state.a, rotateLeft state.b 30, state.c, state.d⟩

def take (data : ByteArray) (state : State) (start : Nat) : State :=
  let next := (List.range 80).foldl (round (schedule data start)) state
  ⟨state.a + next.a, state.b + next.b, state.c + next.c, state.d + next.d, state.e + next.e⟩

def digest (data : ByteArray) : String :=
  let data := padded (fun n => (littleBytes 8 n).reverse) data
  let state := absorb (take data) ({} : State) data.size
  hexadecimal ([state.a, state.b, state.c, state.d, state.e].flatMap fun word =>
    (littleBytes 4 word.toNat).reverse)

end Sha1

namespace Sha256

open Digest

def constants : Array UInt32 := #[
  0x428a2f98, 0x71374491, 0xb5c0fbcf, 0xe9b5dba5, 0x3956c25b, 0x59f111f1, 0x923f82a4, 0xab1c5ed5,
  0xd807aa98, 0x12835b01, 0x243185be, 0x550c7dc3, 0x72be5d74, 0x80deb1fe, 0x9bdc06a7, 0xc19bf174,
  0xe49b69c1, 0xefbe4786, 0x0fc19dc6, 0x240ca1cc, 0x2de92c6f, 0x4a7484aa, 0x5cb0a9dc, 0x76f988da,
  0x983e5152, 0xa831c66d, 0xb00327c8, 0xbf597fc7, 0xc6e00bf3, 0xd5a79147, 0x06ca6351, 0x14292967,
  0x27b70a85, 0x2e1b2138, 0x4d2c6dfc, 0x53380d13, 0x650a7354, 0x766a0abb, 0x81c2c92e, 0x92722c85,
  0xa2bfe8a1, 0xa81a664b, 0xc24b8b70, 0xc76c51a3, 0xd192e819, 0xd6990624, 0xf40e3585, 0x106aa070,
  0x19a4c116, 0x1e376c08, 0x2748774c, 0x34b0bcb5, 0x391c0cb3, 0x4ed8aa4a, 0x5b9cca4f, 0x682e6ff3,
  0x748f82ee, 0x78a5636f, 0x84c87814, 0x8cc70208, 0x90befffa, 0xa4506ceb, 0xbef9a3f7, 0xc67178f2]

structure State where
  a : UInt32 := 0x6a09e667
  b : UInt32 := 0xbb67ae85
  c : UInt32 := 0x3c6ef372
  d : UInt32 := 0xa54ff53a
  e : UInt32 := 0x510e527f
  f : UInt32 := 0x9b05688c
  g : UInt32 := 0x1f83d9ab
  h : UInt32 := 0x5be0cd19

def schedule (data : ByteArray) (start : Nat) : Array UInt32 :=
  (List.range 48).foldl (fun words i =>
    let word (back : Nat) : UInt32 := words[i + 16 - back]?.getD 0
    let early := rotateRight (word 15) 7 ^^^ rotateRight (word 15) 18 ^^^ (word 15 >>> 3)
    let late := rotateRight (word 2) 17 ^^^ rotateRight (word 2) 19 ^^^ (word 2 >>> 10)
    words.push (word 16 + early + word 7 + late))
    (Array.ofFn fun i : Fin 16 => bigWord data (start + 4 * i))

def round (words : Array UInt32) (state : State) (i : Nat) : State :=
  let high := rotateRight state.e 6 ^^^ rotateRight state.e 11 ^^^ rotateRight state.e 25
  let choice := (state.e &&& state.f) ^^^ (~~~ state.e &&& state.g)
  let first := state.h + high + choice + constants[i]?.getD 0 + words[i]?.getD 0
  let low := rotateRight state.a 2 ^^^ rotateRight state.a 13 ^^^ rotateRight state.a 22
  let majority := (state.a &&& state.b) ^^^ (state.a &&& state.c) ^^^ (state.b &&& state.c)
  ⟨first + low + majority, state.a, state.b, state.c, state.d + first, state.e, state.f, state.g⟩

def take (data : ByteArray) (s : State) (start : Nat) : State :=
  let t := (List.range 64).foldl (round (schedule data start)) s
  ⟨s.a + t.a, s.b + t.b, s.c + t.c, s.d + t.d, s.e + t.e, s.f + t.f, s.g + t.g, s.h + t.h⟩

def digest (data : ByteArray) : String :=
  let data := padded (fun n => (littleBytes 8 n).reverse) data
  let s := absorb (take data) ({} : State) data.size
  hexadecimal ([s.a, s.b, s.c, s.d, s.e, s.f, s.g, s.h].flatMap fun word =>
    (littleBytes 4 word.toNat).reverse)

end Sha256

/-! ## Programs -/

def summarize (invocation : Invocation) (paths : List String)
    (line : String → ByteArray → String) : Action Nat :=
  forInputs paths fun path =>
    withInput invocation.name path fun descriptor => do
      match ← readAll descriptor with
      | .error errno =>
        complainOf invocation.name path errno
        return 1
      | .ok data => outputOr invocation.name (line path data ++ "\n").toUTF8 0

def cksum : Program := fun invocation =>
  withOptions invocation {} fun parsed =>
    summarize invocation parsed.operands fun path data =>
      let label := if parsed.operands.isEmpty then "" else " " ++ path
      toString (Crc.checksum data) ++ " " ++ toString data.size ++ label

namespace Digest

def report (path digest : String) : String :=
  let escape (c : Char) : List Char :=
    if c = '\n' then ['\\', 'n'] else if c = '\x0d' then ['\\', 'r']
    else if c = '\\' then ['\\', '\\'] else [c]
  let name := String.ofList (path.toList.flatMap escape)
  (if name = path then "" else "\\") ++ digest ++ "  " ++ name

def readReport? (line : String) : Option (String × String) :=
  let characters := line.toList
  let digest := characters.takeWhile (· ≠ ' ')
  match characters.drop digest.length with
  | ' ' :: _ :: name =>
    if name.isEmpty then none else some (String.ofList digest, String.ofList name)
  | _ => none

/-- Compares the files that a report names with what it says of them. The result is how many there
were, how many differed, how many could not be read, and how many lines were no report. -/
def checkLines (name : String) (quiet : Bool) (digest : ByteArray → String) :
    Nat × Nat × Nat × Nat → List String → Action (Nat × Nat × Nat × Nat)
  | counts, [] => return counts
  | (all, differing, unread, malformed), line :: rest => do
    match readReport? line with
    | none => checkLines name quiet digest (all, differing, unread, malformed + 1) rest
    | some (expected, path) =>
      match ← openInput path with
      | .error errno =>
        complainOf name path errno
        let _ ← putText (path ++ ": FAILED open or read\n")
        checkLines name quiet digest (all + 1, differing, unread + 1, malformed) rest
      | .ok descriptor =>
        let data := (← readAll descriptor).toOption.getD ByteArray.empty
        closeInput descriptor
        let same := digest data = expected.toLower
        if !(same && quiet) then
          let _ ← putText (path ++ (if same then ": OK\n" else ": FAILED\n"))
        checkLines name quiet digest
          (all + 1, differing + (if same then 0 else 1), unread, malformed) rest

def plural (count : Nat) (one many : String) : String := if count = 1 then one else many

def check (invocation : Invocation) (quiet : Bool) (digest : ByteArray → String) (path : String) :
    Action Nat :=
  withInput invocation.name path fun descriptor => do
    let data := (← readAll descriptor).toOption.getD ByteArray.empty
    let lines := (allLines data).toList.map fun line => (String.fromUTF8? line).getD ""
    let (all, differing, unread, malformed) ←
      checkLines invocation.name quiet digest (0, 0, 0, 0) lines
    if all = 0 then
      complain invocation.name (shellName path ++ ": no properly formatted checksum lines found")
      return 1
    let warn (count : Nat) (text : String) : Action Unit := do
      if count ≠ 0 then complain invocation.name ("WARNING: " ++ toString count ++ text)
    warn malformed (plural malformed " line is improperly formatted"
      " lines are improperly formatted")
    warn unread (plural unread " listed file could not be read" " listed files could not be read")
    warn differing (plural differing " computed checksum did NOT match"
      " computed checksums did NOT match")
    return if differing = 0 && unread = 0 then 0 else 1

def table : OptionTable where
  flags := ['b', 'c', 't', 'w', 'z', 'q']
  long := [("binary", 'b'), ("check", 'c'), ("text", 't'), ("quiet", 'q'), ("warn", 'w')]

def program (digest : ByteArray → String) : Program := fun invocation =>
  withOptions invocation table fun parsed =>
    if parsed.has 'c' then
      forInputs parsed.operands (check invocation (parsed.has 'q') digest)
    else summarize invocation parsed.operands fun path data => report path (digest data)

end Digest

def md5sum : Program := Digest.program Md5.digest

def sha1sum : Program := Digest.program Sha1.digest

def sha256sum : Program := Digest.program Sha256.digest

end PipelineShell.Utility
