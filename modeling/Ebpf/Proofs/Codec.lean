import Mathlib.Algebra.Group.Nat.Defs
import Ebpf.Instruction.Assembly
import Ebpf.Limits

/-! # Instruction words as numbers

The fields of an instruction are the digits of its word in a mixed radix, so that decoding an
encoded instruction gives its fields back. The immediate of a wide load has the two immediates of
its slots as digits.
-/

namespace Ebpf

theorem toNat_ofNat_of_lt {k : Nat} (h : k < 64) : (UInt64.ofNat k).toNat = k :=
  UInt64.toNat_ofNat_of_lt' (Nat.lt_of_lt_of_le h (by decide))

theorem toNat_or_shiftLeft {a b : UInt64} {k : Nat} (hk : k < 64) (ha : a.toNat < 2 ^ k)
    (hb : b.toNat < 2 ^ (64 - k)) :
    (a ||| b <<< UInt64.ofNat k).toNat = a.toNat + 2 ^ k * b.toNat := by
  have hlt : b.toNat * 2 ^ k < 2 ^ 64 := by
    have := Nat.mul_lt_mul_of_pos_right hb (Nat.two_pow_pos k)
    rwa [← Nat.pow_add, Nat.sub_add_cancel (Nat.le_of_lt hk)] at this
  rw [UInt64.toNat_or, UInt64.toNat_shiftLeft, toNat_ofNat_of_lt hk, Nat.mod_eq_of_lt hk,
    Nat.shiftLeft_eq, Nat.mod_eq_of_lt hlt, Nat.or_comm, ← Nat.shiftLeft_eq,
    ← Nat.shiftLeft_add_eq_or_of_lt ha, Nat.shiftLeft_eq, Nat.mul_comm, Nat.add_comm]

theorem toNat_shiftRight {w : UInt64} {k : Nat} (hk : k < 64) :
    (w >>> UInt64.ofNat k).toNat = w.toNat / 2 ^ k := by
  rw [UInt64.toNat_shiftRight, toNat_ofNat_of_lt hk, Nat.mod_eq_of_lt hk, Nat.shiftRight_eq_div_pow]

theorem toNat_and_fifteen (r : UInt8) : (r &&& 0x0f).toNat = r.toNat % 16 := by
  rw [UInt8.toNat_and]
  exact Nat.and_two_pow_sub_one_eq_mod _ 4

theorem and_fifteen_of_le {r : UInt8} (h : r ≤ framePointer) : r &&& 0x0f = r := by
  have hle : r.toNat ≤ 10 := UInt8.le_iff_toNat_le.mp h
  apply UInt8.toNat_inj.mp
  rw [toNat_and_fifteen]
  omega

namespace Instruction

theorem toNat_encode (i : Instruction) : (encode i).toNat =
    i.opcode.toNat + 2 ^ 8 * (i.dst.toNat % 16) + 2 ^ 12 * (i.src.toNat % 16) +
      2 ^ 16 * i.off.toUInt16.toNat + 2 ^ 32 * i.imm.toUInt32.toNat := by
  have hop := i.opcode.toNat_lt
  have hoff := i.off.toUInt16.toNat_lt
  have himm := i.imm.toUInt32.toNat_lt
  have hdst : (i.dst &&& 0x0f).toUInt64.toNat = i.dst.toNat % 16 := toNat_and_fifteen i.dst
  have hsrc : (i.src &&& 0x0f).toUInt64.toNat = i.src.toNat % 16 := toNat_and_fifteen i.src
  -- The fields are put above one another in the order of the word.
  have h8 : (i.opcode.toUInt64 ||| (i.dst &&& 0x0f).toUInt64 <<< 8).toNat =
      i.opcode.toNat + 2 ^ 8 * (i.dst.toNat % 16) := by
    rw [← hdst]
    exact toNat_or_shiftLeft (k := 8) (by decide) hop (by rw [hdst]; omega)
  have h12 := toNat_or_shiftLeft (b := (i.src &&& 0x0f).toUInt64) (k := 12) (by decide)
    (by rw [h8]; omega) (by rw [hsrc]; omega)
  rw [h8, hsrc] at h12
  have h16 := toNat_or_shiftLeft (b := i.off.toUInt16.toUInt64) (k := 16) (by decide)
    (by rw [h12]; omega) (Nat.lt_of_lt_of_le hoff (by decide))
  rw [h12] at h16
  have h32 := toNat_or_shiftLeft (b := i.imm.toUInt32.toUInt64) (k := 32) (by decide)
    (by rw [h16, UInt16.toNat_toUInt64]; omega) himm
  rw [h16] at h32
  exact h32

theorem toNat_opcode_decode (w : UInt64) : (decode w).opcode.toNat = w.toNat % 2 ^ 8 := rfl

theorem toNat_dst_decode (w : UInt64) : (decode w).dst.toNat = w.toNat / 2 ^ 8 % 16 := by
  have h := toNat_shiftRight (w := w) (k := 8) (by decide)
  rw [decode, toNat_and_fifteen, UInt64.toNat_toUInt8, ← h]
  exact Nat.mod_mod_of_dvd _ (by decide)

theorem toNat_src_decode (w : UInt64) : (decode w).src.toNat = w.toNat / 2 ^ 12 % 16 := by
  have h := toNat_shiftRight (w := w) (k := 12) (by decide)
  rw [decode, toNat_and_fifteen, UInt64.toNat_toUInt8, ← h]
  exact Nat.mod_mod_of_dvd _ (by decide)

theorem toNat_off_decode (w : UInt64) :
    (decode w).off.toUInt16.toNat = w.toNat / 2 ^ 16 % 2 ^ 16 := by
  have h := toNat_shiftRight (w := w) (k := 16) (by decide)
  rw [← h]
  rfl

theorem toNat_imm_decode (w : UInt64) : (decode w).imm.toUInt32.toNat = w.toNat / 2 ^ 32 := by
  have h := toNat_shiftRight (w := w) (k := 32) (by decide)
  have hlt := w.toNat_lt
  rw [← Nat.mod_eq_of_lt (show w.toNat / 2 ^ 32 < 2 ^ 32 by omega), ← h]
  rfl

theorem toInt16_inj {a b : Int16} (h : a.toUInt16.toNat = b.toUInt16.toNat) : a = b :=
  congrArg UInt16.toInt16 (UInt16.toNat_inj.mp h)

theorem toInt32_inj {a b : Int32} (h : a.toUInt32.toNat = b.toUInt32.toNat) : a = b :=
  congrArg UInt32.toInt32 (UInt32.toNat_inj.mp h)

theorem decode_encode (i : Instruction) :
    decode (encode i) = { i with dst := i.dst &&& 0x0f, src := i.src &&& 0x0f } := by
  have hop := i.opcode.toNat_lt
  have hoff := i.off.toUInt16.toNat_lt
  have hw := toNat_encode i
  rw [Instruction.mk.injEq]
  refine ⟨?_, ?_, ?_, ?_, ?_⟩
  · apply UInt8.toNat_inj.mp
    rw [toNat_opcode_decode, hw]
    omega
  · apply UInt8.toNat_inj.mp
    rw [toNat_dst_decode, toNat_and_fifteen, hw]
    omega
  · apply UInt8.toNat_inj.mp
    rw [toNat_src_decode, toNat_and_fifteen, hw]
    omega
  · apply toInt16_inj
    rw [toNat_off_decode, hw]
    omega
  · apply toInt32_inj
    rw [toNat_imm_decode, hw]
    omega

end Instruction

end Ebpf
