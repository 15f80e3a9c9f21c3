import Ebpf.Text.Blank

/-! # Numerals for machine words

A numeral is decimal, or hexadecimal behind `0x` or `0X`; one `+` may stand before its
digits. Digits are read from the left, and the first failure decides.
-/

namespace Ebpf

inductive NumeralError where
  | empty
  | invalidDigit
  | tooLarge
  deriving DecidableEq

def NumeralError.message : NumeralError → String
  | empty => "cannot parse integer from empty string"
  | invalidDigit => "invalid digit found in string"
  | tooLarge => "number too large to fit in target type"

namespace Numeral

def digit? (base : Nat) (c : Char) : Option Nat :=
  let value? :=
    if '0' ≤ c ∧ c ≤ '9' then some (c.toNat - '0'.toNat)
    else if 'a' ≤ c ∧ c ≤ 'f' then some (c.toNat - 'a'.toNat + 10)
    else if 'A' ≤ c ∧ c ≤ 'F' then some (c.toNat - 'A'.toNat + 10)
    else none
  value?.filter (· < base)

/-- Appends the digits `cs` to the number `value`, which has to stay a machine word. -/
def appendDigits (base : Nat) : Nat → List Char → Except NumeralError Nat
  | value, [] => .ok value
  | value, c :: cs =>
    match digit? base c with
    | none => .error .invalidDigit
    | some d =>
      if value * base + d < UInt64.size then appendDigits base (value * base + d) cs
      else .error .tooLarge

/-- The digits of a numeral of `base`, behind at most one `+`. -/
def magnitude (base : Nat) : List Char → Except NumeralError Nat
  | [] => .error .empty
  | ['+'] => .error .invalidDigit
  | '+' :: cs => appendDigits base 0 cs
  | cs => appendDigits base 0 cs

def ofChars : List Char → Except NumeralError Nat
  | '0' :: 'x' :: cs => magnitude 16 cs
  | '0' :: 'X' :: cs => magnitude 16 cs
  | cs => magnitude 10 cs

end Numeral

structure InvalidNumeral where
  text : String
  cause : NumeralError
  deriving DecidableEq

def InvalidNumeral.message (e : InvalidNumeral) : String :=
  s!"invalid argument `{e.text}`: {e.cause.message}"

def parseWord (text : String) : Except InvalidNumeral UInt64 :=
  let cs := Text.trim text.toList
  match Numeral.ofChars cs with
  | .ok n => .ok (UInt64.ofNat n)
  | .error cause => .error ⟨String.ofList cs, cause⟩

end Ebpf
