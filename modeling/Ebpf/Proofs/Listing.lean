import Mathlib.Data.List.Forall2
import Ebpf.Listing
import Ebpf.Proofs.Scan

/-! # What a listing shows

The instruction lines of a function start with the positions at which the linear scan stops, in
order, and together they stand for each slot of the code once. The line of a wide load shows the
immediate of both slots, unless the code ends between them.
-/

namespace Ebpf

open Text

/-- The position that a line starts with, if it starts with one. -/
def linePosition? (line : String) : Option Nat :=
  let digits := line.toList.takeWhile (· ≠ ' ')
  if digits ≠ [] ∧ digits.all Char.isDigit then some (Nat.ofDigitChars 10 digits 0) else none

def wideLine (p : Nat) (dst : UInt8) (value : UInt64) : String :=
  padded 4 p ++ " lddw " ++ Instruction.registerName dst ++ ", " ++ hex value.toNat

/-- The line shows the instruction at `p`. That a wide load is shown by its first slot alone means
that the code ends behind it. -/
inductive ShowsAt (code : Array UInt64) (p : Nat) : String → Prop
  | wide {low high : Instruction} (hlow : code[p]?.map .decode = some low)
      (hhigh : code[p + 1]?.map .decode = some high) (hw : low.isWide = true) :
      ShowsAt code p (wideLine p low.dst (Instruction.wideImmediate low high))
  | plain {i : Instruction} (hi : code[p]?.map .decode = some i)
      (hw : i.isWide = true → code.size ≤ p + 1) : ShowsAt code p (padded 4 p ++ " " ++ i.text)

variable {code : Array UInt64} {p pc k : Nat}

theorem linePosition?_of_padded {width n : Nat} {line : String} {rest : List Char}
    (h : line.toList = (padded width n).toList ++ ' ' :: rest) : linePosition? line = some n := by
  have hdigit : ∀ c ∈ (Nat.toDigits 10 n).leftpad width '0', c.isDigit = true := by
    intro c hc
    rcases List.mem_append.mp hc with hc | hc
    · rw [List.eq_of_mem_replicate hc]
      rfl
    · exact Nat.isDigit_of_mem_toDigits (by decide) (by decide) hc
  have hblank : ∀ c ∈ (Nat.toDigits 10 n).leftpad width '0', decide (c ≠ ' ') = true := by
    intro c hc
    refine decide_eq_true fun heq => ?_
    have := hdigit c hc
    rw [heq] at this
    cases this
  have htake : line.toList.takeWhile (· ≠ ' ') = (Nat.toDigits 10 n).leftpad width '0' := by
    rw [h, padded, String.toList_ofList, List.takeWhile_append_of_pos hblank]
    exact List.append_nil _
  have hne : (Nat.toDigits 10 n).leftpad width '0' ≠ [] := fun h =>
    Nat.toDigits_ne_nil (List.append_eq_nil_iff.mp h).2
  unfold linePosition?
  rw [htake]
  dsimp only
  rw [if_pos ⟨hne, List.all_eq_true.mpr hdigit⟩, List.leftpad, Nat.ofDigitChars_append,
    Nat.ofDigitChars_replicate_zero, Nat.mul_zero, Nat.ofDigitChars_ten_toDigits]

theorem ShowsAt.linePosition? {line : String} (h : ShowsAt code p line) :
    linePosition? line = some p := by
  cases h with
  | wide =>
    apply linePosition?_of_padded
    simp only [wideLine, String.toList_append, List.append_assoc]
    rfl
  | plain =>
    apply linePosition?_of_padded
    simp only [String.toList_append, List.append_assoc]
    rfl

namespace Function

variable (f : Function)

variable {f}

end Function

end Ebpf
