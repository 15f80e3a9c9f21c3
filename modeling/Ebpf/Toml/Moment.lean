import Ebpf.Toml.Number

/-! # TOML moments

Dates, times of day, and both together with or without a distance from universal time. A date
has to be in the calendar; a minute may have a leap second.
-/

namespace Ebpf.Toml

def twoDigits? (a b : Char) : Option Nat :=
  if a.isDigit && b.isDigit then some (numberOf 10 [a, b]) else none

def daysIn (year month : Nat) : Nat :=
  if month = 2 then
    if year % 4 = 0 ∧ (year % 100 ≠ 0 ∨ year % 400 = 0) then 29 else 28
  else if month = 4 ∨ month = 6 ∨ month = 9 ∨ month = 11 then 30
  else 31

def splitDate : List Char → Option (List Char)
  | y1 :: y2 :: y3 :: y4 :: '-' :: m1 :: m2 :: '-' :: d1 :: d2 :: rest => do
    let year := 100 * (← twoDigits? y1 y2) + (← twoDigits? y3 y4)
    let month ← twoDigits? m1 m2
    let day ← twoDigits? d1 d2
    if 1 ≤ month ∧ month ≤ 12 ∧ 1 ≤ day ∧ day ≤ daysIn year month then some rest else none
  | _ => none

def splitTime : List Char → Option (List Char)
  | h1 :: h2 :: ':' :: m1 :: m2 :: ':' :: s1 :: s2 :: rest => do
    if (← twoDigits? h1 h2) ≤ 23 ∧ (← twoDigits? m1 m2) ≤ 59 ∧ (← twoDigits? s1 s2) ≤ 60 then
      match rest with
      | '.' :: c :: cs => if c.isDigit then some (cs.dropWhile Char.isDigit) else none
      | rest => some rest
    else none
  | _ => none

/-- Nothing, or a distance from universal time. -/
def isZone : List Char → Bool
  | [] | ['Z'] | ['z'] => true
  | [s, h1, h2, ':', m1, m2] =>
    (s == '+' || s == '-')
      && match twoDigits? h1 h2, twoDigits? m1 m2 with
        | some h, some m => h ≤ 23 && m ≤ 59
        | _, _ => false
  | _ => false

/-- A date, a time of day, or both with a letter or a blank between them. -/
def isMoment (cs : List Char) : Bool :=
  match splitDate cs with
  | some [] => true
  | some (c :: rest) =>
    (c == 'T' || c == 't' || c == ' ') && ((splitTime rest).map isZone).getD false
  | none => splitTime cs == some []

end Ebpf.Toml
