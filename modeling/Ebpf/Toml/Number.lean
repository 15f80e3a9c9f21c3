import Ebpf.Toml.Quoted

/-! # TOML numbers

Integers in four bases, and floating-point numbers. Of these only those are numbers that a
double can hold, so a decimal that would round to infinity is refused unless it is negative.
-/

namespace Ebpf.Toml

/-- Digits for which `p` holds, with single underscores between them. -/
def digitRun? (p : Char → Bool) : List Char → Option (List Char)
  | [] => none
  | [c] => if p c then some [c] else none
  | c :: '_' :: cs => if p c then (digitRun? p cs).map (c :: ·) else none
  | c :: cs => if p c then (digitRun? p cs).map (c :: ·) else none

def numberOf (base : Nat) (digits : List Char) : Nat :=
  digits.foldl (fun n c => base * n + (hexValue? c).getD 0) 0

/-- Splits off a sign; the result says whether it is a minus. -/
def splitSign : List Char → Bool × List Char
  | '-' :: cs => (true, cs)
  | '+' :: cs => (false, cs)
  | cs => (false, cs)

/-- Decimal digits that do not begin with an idle zero. -/
def decimal? (cs : List Char) : Option (List Char) :=
  match digitRun? Char.isDigit cs with
  | some ['0'] => some ['0']
  | some ('0' :: _) => none
  | digits? => digits?

def isHexadecimal (c : Char) : Bool := (hexValue? c).isSome

def isOctal (c : Char) : Bool := '0' ≤ c && c ≤ '7'

def isBinary (c : Char) : Bool := c == '0' || c == '1'

def integer? (cs : List Char) : Option Int := do
  let value ←
    match cs with
    | '0' :: 'x' :: cs => (digitRun? isHexadecimal cs).map fun digits => (numberOf 16 digits : Int)
    | '0' :: 'o' :: cs => (digitRun? isOctal cs).map fun digits => (numberOf 8 digits : Int)
    | '0' :: 'b' :: cs => (digitRun? isBinary cs).map fun digits => (numberOf 2 digits : Int)
    | cs =>
      let (negative, cs) := splitSign cs
      (decimal? cs).map fun digits =>
        if negative then -(numberOf 10 digits : Int) else numberOf 10 digits
  if Int64.minValue.toInt ≤ value ∧ value ≤ Int64.maxValue.toInt then some value else none

/-- A decimal in scientific notation: its digits are a whole number, to be multiplied by a
power of ten. -/
structure Decimal where
  negative : Bool
  digits : List Char
  exponent : Int
  deriving DecidableEq

namespace Decimal

/-- Halfway between the greatest double and the next power of two. From here on magnitudes
round to infinity. -/
def infinityBound : Nat := 1 <<< 1024 - 1 <<< 970

def infinityWidth : Int := 309

def roundsToInfinity (d : Decimal) : Bool :=
  let digits := d.digits.dropWhile (· == '0')
  let width := digits.length + d.exponent
  if digits.isEmpty || width < infinityWidth then false
  else if infinityWidth < width then true
  else
    let n := numberOf 10 digits
    infinityBound * Nat.pow 10 (-d.exponent).toNat ≤ n * Nat.pow 10 d.exponent.toNat

end Decimal

def isExponentLetter (c : Char) : Bool := c == 'e' || c == 'E'

/-- The value of exponent digits. It stops growing when no decimal of a reasonable length can
make up for it. -/
def exponentOf (digits : List Char) : Nat :=
  digits.foldl (fun n c => if n < 0x10000 then 10 * n + (hexValue? c).getD 0 else n) 0

def exponent? (cs : List Char) : Option Int :=
  let (negative, cs) := splitSign cs
  (digitRun? Char.isDigit cs).map fun digits =>
    if negative then -(exponentOf digits : Int) else exponentOf digits

/-- A number with a fraction, an exponent or both. -/
def decimalFloat? (cs : List Char) : Option Decimal := do
  let (negative, cs) := splitSign cs
  let mantissa := cs.takeWhile (!isExponentLetter ·)
  let whole := mantissa.takeWhile (· != '.')
  if whole.length = cs.length then failure
  let wholeDigits ← decimal? whole
  let fractionDigits ←
    if whole.length = mantissa.length then some []
    else digitRun? Char.isDigit (mantissa.drop (whole.length + 1))
  let exponent ←
    if mantissa.length = cs.length then some 0 else exponent? (cs.drop (mantissa.length + 1))
  return { negative, digits := wholeDigits ++ fractionDigits
           exponent := exponent - fractionDigits.length }

def isNonFinite (cs : List Char) : Bool :=
  let cs := (splitSign cs).2
  cs == ['i', 'n', 'f'] || cs == ['n', 'a', 'n']

def isFloat (cs : List Char) : Bool :=
  isNonFinite cs ||
    match decimalFloat? cs with
    | some d => d.negative || !d.roundsToInfinity
    | none => false

end Ebpf.Toml
