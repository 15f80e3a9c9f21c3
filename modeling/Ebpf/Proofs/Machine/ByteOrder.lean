import Ebpf.Machine.Alu
import Ebpf.Proofs.Machine.Memory

/-! # Bytes in both orders

A number has its bytes as digits, so it is determined by them and they by it. The same bytes read
from the highest and from the lowest give two numbers of which each has the bytes of the other in
reverse order.
-/

namespace Ebpf

variable {bytes other : Nat → UInt8} {value v w high : UInt64} {len k n : Nat}

theorem littleEndian_succ_last (bytes : Nat → UInt8) (len : Nat) : littleEndian bytes (len + 1) =
    littleEndian bytes len + (bytes len).toNat * 256 ^ len :=
  Finset.sum_range_succ ..

theorem littleEndian_byteOf (value : UInt64) (len : Nat) :
    littleEndian (byteOf value) len = value.toNat % 256 ^ len := by
  induction len with
  | zero => rw [Nat.pow_zero, Nat.mod_one]; rfl
  | succ len ih =>
    rw [littleEndian_succ_last, ih, Nat.mod_pow_succ, byteOf, UInt8.toNat_ofNat', Nat.mul_comm]

theorem byteOf_of_littleEndian (h : value.toNat = littleEndian bytes len) (hk : k < len) :
    byteOf value k = bytes k := by
  induction len generalizing value bytes k with
  | zero => omega
  | succ len ih =>
    have hbyte := (bytes 0).toNat_lt
    rw [littleEndian_succ] at h
    cases k with
    | zero =>
      apply UInt8.toNat_inj.mp
      rw [byteOf_zero, UInt64.toNat_toUInt8, h]
      omega
    | succ k =>
      have hrest : (value >>> 8).toNat = littleEndian (fun k => bytes (k + 1)) len := by
        rw [toNat_shiftRight_eight, h]
        omega
      rw [← byteOf_shiftRight]
      exact ih hrest (Nat.lt_of_succ_lt_succ hk)

/-- The number with these `len` bytes, highest first, behind the digits `high`. -/
def bigEndian (bytes : Nat → UInt8) : Nat → UInt64 → UInt64
  | 0, high => high
  | len + 1, high => bigEndian (fun k => bytes (k + 1)) len (high * 256 + (bytes 0).toUInt64)

theorem bigEndian_congr (h : ∀ k < len, bytes k = other k) :
    bigEndian bytes len high = bigEndian other len high := by
  induction len generalizing bytes other high with
  | zero => rfl
  | succ len ih =>
    rw [bigEndian, bigEndian, h 0 (Nat.zero_lt_succ len)]
    exact ih fun k hk => h (k + 1) (Nat.succ_lt_succ hk)

theorem readBig_eq (bytes : Array UInt8) (start len : Nat) (high : UInt64) :
    readBig bytes start len high = bigEndian (fun k => bytes.getD (start + k) 0) len high := by
  induction len generalizing start high with
  | zero => rfl
  | succ len ih =>
    rw [readBig, bigEndian, ih]
    simp only [Nat.add_assoc, Nat.add_comm 1, Nat.add_zero]

theorem reverseBytes_eq (value high : UInt64) (len : Nat) :
    reverseBytes len value high = bigEndian (byteOf value) len high := by
  induction len generalizing value high with
  | zero => rfl
  | succ len ih =>
    have hlow : value % 256 = (byteOf value 0).toUInt64 := by
      rw [byteOf_zero]
      apply UInt64.toNat_inj.mp
      rw [UInt8.toNat_toUInt64, UInt64.toNat_toUInt8, UInt64.toNat_mod]
      rfl
    have hrest : byteOf (value >>> 8) = fun k => byteOf value (k + 1) :=
      funext (byteOf_shiftRight value)
    rw [reverseBytes, bigEndian, ih, hlow, hrest]

theorem toNat_bigEndian_of_lt (bytes : Nat → UInt8) (hhigh : high.toNat < 256 ^ n)
    (hlen : n + len ≤ 8) : (bigEndian bytes len high).toNat =
      high.toNat * 256 ^ len + littleEndian (fun k => bytes (len - 1 - k)) len := by
  induction len generalizing bytes high n with
  | zero => simp [bigEndian, littleEndian]
  | succ len ih =>
    have hbyte := (bytes 0).toNat_lt
    have hpow : 256 ^ (n + 1) ≤ 256 ^ 8 := Nat.pow_le_pow_right (by decide) (by omega)
    have hlt : high.toNat * 256 + (bytes 0).toNat < 256 ^ (n + 1) := by
      rw [Nat.pow_succ]
      omega
    have hnext : (high * 256 + (bytes 0).toUInt64).toNat = high.toNat * 256 + (bytes 0).toNat := by
      rw [UInt64.toNat_add, UInt64.toNat_mul, UInt8.toNat_toUInt64]
      simp only [UInt64.reduceToNat]
      omega
    have hrest : littleEndian (fun k => bytes (len - 1 - k + 1)) len =
        littleEndian (fun k => bytes (len + 1 - 1 - k)) len := by
      apply littleEndian_congr
      intro k hk
      congr 1
      omega
    rw [bigEndian, ih _ (by rw [hnext]; exact hlt) (by omega), hnext, hrest, littleEndian_succ_last,
      Nat.add_sub_cancel, Nat.sub_self, Nat.pow_succ, Nat.add_mul, Nat.mul_assoc, Nat.mul_comm 256]
    omega

theorem toNat_bigEndian (bytes : Nat → UInt8) (hlen : len ≤ 8) : (bigEndian bytes len 0).toNat =
    littleEndian (fun k => bytes (len - 1 - k)) len := by
  rw [toNat_bigEndian_of_lt (n := 0) bytes (by decide) (by omega)]
  simp

/-- Both words fit into `len` bytes, and each of them has the bytes of the other in reverse
order. -/
structure Reversed (len : Nat) (v w : UInt64) : Prop where
  left_lt : v.toNat < 256 ^ len
  right_lt : w.toNat < 256 ^ len
  bytes : ∀ k < len, byteOf v k = byteOf w (len - 1 - k)

theorem reversed_read (bytes : Array UInt8) (start : Nat) (hlen : len ≤ 8) :
    Reversed len (readBig bytes start len 0) (readLittle bytes start len) := by
  have hbig := toNat_bigEndian (fun k => bytes.getD (start + k) 0) hlen
  have hlittle := toNat_readLittle bytes start hlen
  rw [← readBig_eq] at hbig
  constructor
  · rw [hbig]
    exact littleEndian_lt _ _
  · rw [hlittle]
    exact littleEndian_lt _ _
  · intro k hk
    rw [byteOf_of_littleEndian hbig hk, byteOf_of_littleEndian hlittle (by omega)]

theorem reverseBytes_readLittle (bytes : Array UInt8) (start : Nat) (hlen : len ≤ 8) :
    reverseBytes len (readLittle bytes start len) 0 = readBig bytes start len 0 := by
  rw [reverseBytes_eq, readBig_eq]
  apply bigEndian_congr
  intro k hk
  exact byteOf_of_littleEndian (toNat_readLittle bytes start hlen) hk

end Ebpf
