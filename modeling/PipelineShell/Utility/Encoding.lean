import PipelineShell.Utility.Output

namespace PipelineShell.Utility

open PipelineShell.Action Host

namespace Base64

def alphabet : List Char :=
  "ABCDEFGHIJKLMNOPQRSTUVWXYZabcdefghijklmnopqrstuvwxyz0123456789+/".toList

def digit (value : Nat) : Char := alphabet.getD (value % 64) 'A'

def value? (c : Char) : Option Nat := alphabet.idxOf? c

def encode : List UInt8 → List Char
  | a :: b :: c :: rest =>
    let n := a.toNat * 65536 + b.toNat * 256 + c.toNat
    digit (n / 262144) :: digit (n / 4096) :: digit (n / 64) :: digit n :: encode rest
  | [a, b] =>
    let n := a.toNat * 1024 + b.toNat * 4
    [digit (n / 4096), digit (n / 64), digit n, '=']
  | [a] =>
    let n := a.toNat * 16
    [digit (n / 64), digit n, '=', '=']
  | [] => []

def groupBytes (digits : List Nat) : List UInt8 :=
  match digits with
  | [a, b] => [(a * 4 + b / 16).toUInt8]
  | [a, b, c] => [(a * 4 + b / 16).toUInt8, (b * 16 + c / 4).toUInt8]
  | [a, b, c, d] => [(a * 4 + b / 16).toUInt8, (b * 16 + c / 4).toUInt8, (c * 64 + d).toUInt8]
  | _ => []

/-- The bytes up to the first group that is incomplete or has a character that is no digit, and
whether there was none such. -/
def decode : List Char → List UInt8 × Bool
  | a :: b :: '=' :: '=' :: rest =>
    match [a, b].mapM value? with
    | some digits => continued (groupBytes digits) (decode rest)
    | none => ([], false)
  | a :: b :: c :: '=' :: rest =>
    match [a, b, c].mapM value? with
    | some digits => continued (groupBytes digits) (decode rest)
    | none => (groupBytes (valid [a, b, c]), false)
  | a :: b :: c :: d :: rest =>
    match [a, b, c, d].mapM value? with
    | some digits => continued (groupBytes digits) (decode rest)
    | none => (groupBytes (valid [a, b, c, d]), false)
  | [] => ([], true)
  | few => (groupBytes (valid few), false)
where
  continued (bytes : List UInt8) (rest : List UInt8 × Bool) : List UInt8 × Bool :=
    (bytes ++ rest.1, rest.2)
  valid (characters : List Char) : List Nat :=
    (characters.map value?).takeWhile Option.isSome |>.filterMap fun digit => digit

def wrapped (width : Nat) (text : List Char) : List Char :=
  if width = 0 then text else within text.length text
where
  within : Nat → List Char → List Char
    | 0, _ => []
    | bound + 1, text =>
      if text.isEmpty then []
      else text.take width ++ '\n' :: within bound (text.drop width)

def table : OptionTable where
  flags := ['d', 'i']
  values := ['w']
  long := [("decode", 'd'), ("ignore-garbage", 'i'), ("wrap", 'w')]

def run (invocation : Invocation) (parsed : Parsed) : Action Nat := do
  let width := (parsed.value? 'w').getD "76"
  match width.toNat?, parsed.operands with
  | none, _ =>
    complain invocation.name ("invalid wrap size: " ++ quoted width)
    return 1
  | _, _ :: extra :: _ =>
    complain invocation.name ("extra operand " ++ quoted extra)
    tryHelp invocation.name
    return 1
  | some width, operands =>
    let path := operands.headD "-"
    withInput invocation.name path fun descriptor => do
      match ← readAll descriptor with
      | .error errno =>
        complain invocation.name ("read error: " ++ errorText errno)
        return 1
      | .ok data =>
        if parsed.has 'd' then
          let characters := data.toList.map fun byte => Char.ofNat byte.toNat
          let characters := characters.filter fun c =>
            c ≠ '\n' && (!parsed.has 'i' || c = '=' || (value? c).isSome)
          let (bytes, complete) := decode characters
          let status ← outputOr invocation.name ⟨bytes.toArray⟩ 0
          if complete then return status
          complain invocation.name "invalid input"
          return 1
        else
          let text := wrapped width (encode data.toList)
          outputOr invocation.name (String.ofList text).toUTF8 0

end Base64

def base64 : Program := fun invocation =>
  withOptions invocation Base64.table (Base64.run invocation)

end PipelineShell.Utility
