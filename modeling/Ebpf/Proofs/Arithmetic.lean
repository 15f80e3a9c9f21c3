import Mathlib.Algebra.Group.Nat.Defs
import Mathlib.Algebra.Ring.Int.Defs
import Ebpf.Machine.Alu

/-! # Arithmetic on words as arithmetic on numbers

The operations on 64-bit and on 32-bit words are one family of operations on words of any width.
Each of them is an operation on integers, of which the low bits are kept.
-/

namespace Ebpf

/-- The number below `2 ^ w` that is congruent to `n` modulo `2 ^ w`. -/
def wrap (w : Nat) (n : Int) : Nat := (n % 2 ^ w).toNat

/-- The number `a` of `w` bits, read in two's complement. -/
def signedValue (w a : Nat) : Int := if 2 * a < 2 ^ w then a else a - 2 ^ w

theorem toNat_ofInt (w : Nat) (n : Int) : (BitVec.ofInt w n).toNat = wrap w n := by
  rw [BitVec.toNat_ofInt, wrap]
  norm_cast

theorem toInt_eq_signedValue {w : Nat} (a : BitVec w) : a.toInt = signedValue w a.toNat := by
  rw [BitVec.toInt_eq_toNat_cond, signedValue]
  norm_cast

theorem wrap_toInt {w : Nat} (a : BitVec w) : wrap w a.toInt = a.toNat := by
  rw [← toNat_ofInt, BitVec.ofInt_toInt]

theorem wrap_natCast {w a : Nat} (h : a < 2 ^ w) : wrap w a = a := by
  rw [← toNat_ofInt, BitVec.ofInt_natCast, BitVec.toNat_ofNat, Nat.mod_eq_of_lt h]

theorem wrap_mod {v w : Nat} (h : v ≤ w) (n : Int) : wrap w n % 2 ^ v = wrap v n := by
  have cast (w : Nat) : (wrap w n : Int) = n % 2 ^ w :=
    Int.toNat_of_nonneg (Int.emod_nonneg n (Int.ne_of_gt (Int.pow_pos (by decide))))
  have hdvd : (2 : Int) ^ v ∣ 2 ^ w := by exact_mod_cast Nat.pow_dvd_pow 2 h
  apply Int.ofNat.inj
  change ((wrap w n % 2 ^ v : Nat) : Int) = wrap v n
  rw [cast v, ← Int.emod_emod_of_dvd n hdvd, ← cast w]
  norm_cast

theorem toNat_smod {w : Nat} {a b : BitVec w} (hb : 2 * b.toNat < 2 ^ w)
    (hdvd : b.toNat ∣ 2 ^ w) : (a.smod b).toNat = a.toNat % b.toNat := by
  have hsigned : b.toInt = b.toNat := by
    rw [toInt_eq_signedValue, signedValue, if_pos hb]
  have hmod : a.toInt.fmod b.toNat = (a.toNat % b.toNat : Nat) := by
    obtain ⟨k, hk⟩ := hdvd
    have hpow : (2 : Int) ^ w = b.toNat * k := by exact_mod_cast hk
    rw [Int.fmod_eq_emod_of_nonneg _ (Int.natCast_nonneg _), toInt_eq_signedValue, signedValue]
    split
    · rfl
    · rw [hpow, Int.sub_mul_emod_self_left]
      rfl
  have hlt : a.toNat % b.toNat < 2 ^ w := Nat.lt_of_le_of_lt (Nat.mod_le _ _) a.isLt
  rw [← wrap_toInt, BitVec.toInt_smod, hsigned, hmod, wrap_natCast hlt]

namespace ArithmeticOp

variable (op : ArithmeticOp)

/-- Only quotients and remainders can be missing. -/
def Divides : Prop := op = div ∨ op = mod

instance : Decidable op.Divides := inferInstanceAs (Decidable (_ ∨ _))

def result (w a b : Nat) : Nat :=
  match op with
  | add => wrap w (a + b)
  | sub => wrap w (a - b)
  | mul => wrap w (a * b)
  | div => a / b
  | or => a ||| b
  | and => a &&& b
  | lsh => wrap w (a * 2 ^ (b % w))
  | rsh => a / 2 ^ (b % w)
  | neg => wrap w (-a)
  | mod => a % b
  | xor => a ^^^ b
  | mov => b
  | arsh => wrap w (signedValue w a / 2 ^ (b % w))

/-- The operation on words of any width, with some value for a division by zero. -/
def evalBits {w : Nat} (a b : BitVec w) : BitVec w :=
  match op with
  | add => a + b
  | sub => a - b
  | mul => a * b
  | div => a / b
  | or => a ||| b
  | and => a &&& b
  | lsh => a <<< (b.toNat % w)
  | rsh => a >>> (b.toNat % w)
  | neg => -a
  | mod => a % b
  | xor => a ^^^ b
  | mov => b
  | arsh => a.sshiftRight (b.toNat % w)

theorem toNat_evalBits {w : Nat} (a b : BitVec w) :
    (op.evalBits a b).toNat = op.result w a.toNat b.toNat := by
  cases op with
  | add =>
    rw [evalBits, result, ← toNat_ofInt, BitVec.ofInt_add]
    simp
  | sub =>
    rw [evalBits, result, ← toNat_ofInt, Int.sub_eq_add_neg, BitVec.ofInt_add, BitVec.ofInt_neg]
    simp [BitVec.sub_eq_add_neg]
  | mul =>
    rw [evalBits, result, ← toNat_ofInt, BitVec.ofInt_mul]
    simp
  | neg =>
    rw [evalBits, result, ← toNat_ofInt, BitVec.ofInt_neg]
    simp
  | div => exact BitVec.toNat_udiv
  | mod => exact BitVec.toNat_umod
  | or => exact BitVec.toNat_or a b
  | and => exact BitVec.toNat_and a b
  | xor => exact BitVec.toNat_xor a b
  | mov => rfl
  | lsh =>
    rw [evalBits, result, BitVec.toNat_shiftLeft, Nat.shiftLeft_eq, wrap]
    norm_cast
  | rsh => rw [evalBits, result, BitVec.toNat_ushiftRight, Nat.shiftRight_eq_div_pow]
  | arsh =>
    rw [evalBits, result, ← wrap_toInt, BitVec.toInt_sshiftRight, Int.shiftRight_eq_div_pow,
      toInt_eq_signedValue]
    norm_cast

theorem eval64_eq (a b : UInt64) : op.eval64 a b =
    if op.Divides ∧ b.toNat = 0 then none else some ⟨op.evalBits a.toBitVec b.toBitVec⟩ := by
  cases op with
  | div | mod =>
    by_cases hb : b = 0
    · rw [eval64, if_pos hb, if_pos ⟨by simp [Divides], congrArg UInt64.toNat hb⟩]
    · rw [eval64, if_neg hb, if_neg fun h => hb (UInt64.toNat_inj.mp h.2)]
      rfl
  | arsh =>
    rw [eval64, if_neg (by simp [Divides]), evalBits, Option.some.injEq, ← UInt64.toBitVec_inj]
    change (a.toInt64 >>> b.toInt64).toBitVec = _
    rw [Int64.toBitVec_shiftRight, BitVec.sshiftRight', toNat_smod (by decide) (by decide)]
    rfl
  | _ => rfl

theorem eval32_eq (a b : UInt32) : op.eval32 a b =
    if op.Divides ∧ b.toNat = 0 then none else some ⟨op.evalBits a.toBitVec b.toBitVec⟩ := by
  cases op with
  | div | mod =>
    by_cases hb : b = 0
    · rw [eval32, if_pos hb, if_pos ⟨by simp [Divides], congrArg UInt32.toNat hb⟩]
    · rw [eval32, if_neg hb, if_neg fun h => hb (UInt32.toNat_inj.mp h.2)]
      rfl
  | arsh =>
    rw [eval32, if_neg (by simp [Divides]), evalBits, Option.some.injEq, ← UInt32.toBitVec_inj]
    change (a.toInt32 >>> b.toInt32).toBitVec = _
    rw [Int32.toBitVec_shiftRight, BitVec.sshiftRight', toNat_smod (by decide) (by decide)]
    rfl
  | _ => rfl

end ArithmeticOp

end Ebpf
