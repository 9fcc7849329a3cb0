/-!
# Numbers with a point

A decimal text is read exactly, rounded to a number of binary digits, and written with a number of
decimal digits. Ties go to the even neighbour both times.
-/

namespace PipelineShell.Utility.Floating

structure Magnitude where
  numerator : Nat
  denominator : Nat

inductive Value
  | finite (negative : Bool) (magnitude : Magnitude)
  | infinite (negative : Bool)
  | undefined (negative : Bool)

def roundedQuotient (numerator denominator : Nat) : Nat :=
  let quotient := numerator / denominator
  let rest := numerator % denominator
  if 2 * rest < denominator then quotient
  else if denominator < 2 * rest then quotient + 1
  else quotient + quotient % 2

namespace Magnitude

def scaled (base : Nat) (exponent : Int) (m : Magnitude) : Magnitude :=
  if 0 ≤ exponent then { m with numerator := m.numerator * Nat.pow base exponent.toNat }
  else { m with denominator := m.denominator * Nat.pow base (-exponent).toNat }

def rounded (m : Magnitude) : Nat := roundedQuotient m.numerator m.denominator

def withBits (bits : Nat) (m : Magnitude) : Magnitude :=
  if m.numerator = 0 then m
  else
    let shift : Int := bits + m.denominator.log2 - m.numerator.log2
    let approximate := m.scaled 2 shift
    let digits := approximate.numerator / approximate.denominator
    let excess : Int := digits.log2 + 1 - bits
    (⟨(m.scaled 2 (shift - excess)).rounded, 1⟩ : Magnitude).scaled 2 (excess - shift)

def decimalExponent (m : Magnitude) : Int :=
  let estimate : Int :=
    ((Nat.toDigits 10 m.numerator).length : Int) - (Nat.toDigits 10 m.denominator).length
  let reached := m.scaled 10 (-estimate)
  if reached.numerator < reached.denominator then estimate - 1 else estimate

end Magnitude

def digitsValue (digits : List Char) : Nat :=
  digits.foldl (fun n c => n * 10 + (c.toNat - '0'.toNat)) 0

def exponentLimit : Nat := 5000

def readExponent (text : List Char) : Int × List Char :=
  match text with
  | e :: rest =>
    if e = 'e' || e = 'E' then
      let (negative, digits) := match rest with
        | '-' :: digits => (true, digits)
        | '+' :: digits => (false, digits)
        | digits => (false, digits)
      let found := digits.takeWhile Char.isDigit
      let size : Int := (min (digitsValue found) exponentLimit : Nat)
      if found.isEmpty then (0, text)
      else (if negative then -size else size, digits.drop found.length)
    else (0, text)
  | [] => (0, [])

def namedValue? (text : List Char) (negative : Bool) : Option (Value × List Char) :=
  let small := text.map Char.toLower
  if "infinity".toList.isPrefixOf small then some (.infinite negative, text.drop 8)
  else if "inf".toList.isPrefixOf small then some (.infinite negative, text.drop 3)
  else if "nan".toList.isPrefixOf small then some (.undefined negative, text.drop 3)
  else none

def read? (bits : Nat) (text : List Char) : Option (Value × List Char) :=
  let (negative, body) := match text.dropWhile (· = ' ') with
    | '-' :: body => (true, body)
    | '+' :: body => (false, body)
    | body => (false, body)
  let whole := body.takeWhile Char.isDigit
  let (places, rest) := match body.drop whole.length with
    | '.' :: rest => (rest.takeWhile Char.isDigit, rest.dropWhile Char.isDigit)
    | rest => ([], rest)
  if whole.isEmpty && places.isEmpty then namedValue? body negative
  else
    let (exponent, rest) := readExponent rest
    let exact : Magnitude := ⟨digitsValue (whole ++ places), 1⟩
    let exact := exact.scaled 10 (exponent - places.length)
    some (.finite negative (exact.withBits bits), rest)

def withPoint (places : Nat) (value : Nat) : String :=
  let digits := Nat.toDigits 10 value
  let padded := List.replicate (places + 1 - digits.length) '0' ++ digits
  let whole := String.ofList (padded.take (padded.length - places))
  if places = 0 then whole
  else whole ++ "." ++ String.ofList (padded.drop (padded.length - places))

def fixed (places : Nat) (m : Magnitude) : String :=
  withPoint places (m.scaled 10 places).rounded

def significant (places : Nat) (m : Magnitude) : Nat × Int :=
  if m.numerator = 0 then (0, 0)
  else
    let exponent := m.decimalExponent
    let digits := (m.scaled 10 (places - exponent)).rounded
    if (Nat.toDigits 10 digits).length = places + 2 then (digits / 10, exponent + 1)
    else (digits, exponent)

def exponentText (exponent : Int) : String :=
  let digits := toString exponent.natAbs
  "e" ++ (if exponent < 0 then "-" else "+") ++ (if digits.length < 2 then "0" else "") ++ digits

def scientific (places : Nat) (m : Magnitude) : String :=
  let (digits, exponent) := significant places m
  withPoint places digits ++ exponentText exponent

def withoutZeros (text : String) : String :=
  if text.contains '.' then
    let kept := text.toList.reverse.dropWhile (· = '0')
    String.ofList (match kept with
      | '.' :: rest => rest.reverse
      | all => all.reverse)
  else text

def general (digits : Nat) (keepZeros : Bool) (m : Magnitude) : String :=
  let digits := max 1 digits
  let trim := if keepZeros then fun text => text else withoutZeros
  let (mantissa, exponent) := significant (digits - 1) m
  if -4 ≤ exponent && exponent < digits then
    trim (fixed (digits - 1 - exponent).toNat m)
  else trim (withPoint (digits - 1) mantissa) ++ exponentText exponent

def text (kind : Char) (precision : Option Nat) (keepZeros : Bool) : Value → String
  | .finite _ m =>
    let places := precision.getD 6
    let shown := match kind.toLower with
      | 'e' => scientific places m
      | 'f' => fixed places m
      | _ => general places keepZeros m
    if kind.isUpper then shown.toUpper else shown
  | .infinite _ => if kind.isUpper then "INF" else "inf"
  | .undefined _ => if kind.isUpper then "NAN" else "nan"

def Value.isNegative : Value → Bool
  | finite negative _ | infinite negative | undefined negative => negative

def Value.isFinite : Value → Bool
  | finite .. => true
  | _ => false

end PipelineShell.Utility.Floating
