import Mathlib.Algebra.BigOperators.Ring.Finset
import Ebpf.Proofs.Machine.Access
import Ebpf.Proofs.Machine.Start

/-! # Memory as a map of bytes

Guest memory is a partial map from addresses to bytes, defined on the context and on the stack. A
load puts the bytes at its addresses together, lowest first, and a store puts one byte at each of
its addresses. So a sequence of accesses can be followed in the map alone, and each address holds
the byte that was stored there last.
-/

namespace Ebpf

def byteOf (value : UInt64) (k : Nat) : UInt8 := .ofNat (value.toNat / 256 ^ k)

theorem byteOf_zero (value : UInt64) : byteOf value 0 = value.toUInt8 := by
  apply UInt8.toNat_inj.mp
  simp [byteOf]

theorem toNat_shiftRight_eight (value : UInt64) : (value >>> 8).toNat = value.toNat / 256 := by
  rw [UInt64.toNat_shiftRight, Nat.shiftRight_eq_div_pow]
  rfl

theorem byteOf_shiftRight (value : UInt64) (k : Nat) :
    byteOf (value >>> 8) k = byteOf value (k + 1) := by
  rw [byteOf, byteOf, toNat_shiftRight_eight, Nat.div_div_eq_div_mul, Nat.pow_succ, Nat.mul_comm]

/-! ### Bytes of an array -/

/-- The number with these `len` bytes, lowest first. -/
def littleEndian (bytes : Nat → UInt8) (len : Nat) : Nat :=
  ∑ k ∈ Finset.range len, (bytes k).toNat * 256 ^ k

theorem littleEndian_succ (bytes : Nat → UInt8) (len : Nat) : littleEndian bytes (len + 1) =
    (bytes 0).toNat + 256 * littleEndian (fun k => bytes (k + 1)) len := by
  rw [littleEndian, Finset.sum_range_succ', Nat.add_comm, Nat.pow_zero, Nat.mul_one, littleEndian,
    Finset.mul_sum]
  congr 1
  apply Finset.sum_congr rfl
  intro k _
  rw [Nat.pow_succ]
  ac_rfl

theorem littleEndian_lt (bytes : Nat → UInt8) (len : Nat) :
    littleEndian bytes len < 256 ^ len := by
  induction len generalizing bytes with
  | zero => simp [littleEndian]
  | succ len ih =>
    have hbyte := (bytes 0).toNat_lt
    have hrest := ih fun k => bytes (k + 1)
    rw [littleEndian_succ, Nat.pow_succ]
    omega

theorem toNat_readLittle (bytes : Array UInt8) (start : Nat) {len : Nat} (h : len ≤ 8) :
    (readLittle bytes start len).toNat =
      littleEndian (fun k => bytes.getD (start + k) 0) len := by
  induction len generalizing start with
  | zero => simp [readLittle, littleEndian]
  | succ len ih =>
    have hbyte := (bytes.getD start 0).toNat_lt
    have hrest := littleEndian_lt (fun k => bytes.getD (start + 1 + k) 0) len
    have hpow : 256 ^ len ≤ 256 ^ 7 := Nat.pow_le_pow_right (by decide) (by omega)
    have hnext : (fun k => bytes.getD (start + (k + 1)) 0) =
        fun k => bytes.getD (start + 1 + k) 0 := by
      funext k
      rw [Nat.add_right_comm start 1 k, Nat.add_assoc]
    rw [littleEndian_succ, hnext, readLittle, UInt64.toNat_add, UInt64.toNat_mul, ih _ (by omega),
      UInt8.toNat_toUInt64]
    simp only [UInt64.reduceToNat, Nat.add_zero]
    omega

theorem getElem?_writeLittle {bytes : Array UInt8} {start len : Nat} (value : UInt64) (j : Nat)
    (h : start + len ≤ bytes.size) : (writeLittle bytes start len value)[j]? =
      if start ≤ j ∧ j < start + len then some (byteOf value (j - start)) else bytes[j]? := by
  induction len generalizing bytes start value with
  | zero => rw [writeLittle, if_neg (by omega)]
  | succ len ih =>
    rw [writeLittle, ih _ (by simp; omega), Array.getElem?_setIfInBounds, byteOf_shiftRight]
    by_cases hj : start = j
    · subst hj
      rw [if_neg (by omega), if_pos rfl, if_pos (by omega), if_pos (by omega), Nat.sub_self,
        byteOf_zero]
    · rw [if_neg hj]
      by_cases hin : start + 1 ≤ j ∧ j < start + 1 + len
      · rw [if_pos hin, if_pos (by omega), show j - (start + 1) + 1 = j - start by omega]
      · rw [if_neg hin, if_neg (by omega)]

theorem littleEndian_congr {bytes other : Nat → UInt8} {len : Nat}
    (h : ∀ k < len, bytes k = other k) : littleEndian bytes len = littleEndian other len := by
  apply Finset.sum_congr rfl
  intro k hk
  rw [h k (Finset.mem_range.mp hk)]

/-! ### Bytes at addresses -/

/-- A memory whose context has `size` bytes has a byte at address `a`. -/
def Mapped (size a : Nat) : Prop :=
  contextBase ≤ a ∧ a < contextBase + size ∨ stackBase ≤ a ∧ a < stackBase + stackSize

/-- Every address of the access is mapped. The addresses do not wrap around, as no mapped one is
near the end of the address space. -/
def Covered (size : Nat) (addr : UInt64) (len : Nat) : Prop :=
  ∀ k < len, Mapped size (addr.toNat + k)

instance (size a : Nat) : Decidable (Mapped size a) :=
  inferInstanceAs (Decidable (_ ∧ _ ∨ _ ∧ _))

instance (size : Nat) (addr : UInt64) (len : Nat) : Decidable (Covered size addr len) :=
  inferInstanceAs (Decidable (∀ k < len, Mapped size (addr.toNat + k)))

abbrev ByteMap : Type := Nat → Option UInt8

namespace Memory

variable {m : Memory} {region : Region} {a start len : Nat} {addr value : UInt64}

def byteIn? (m : Memory) (region : Region) : ByteMap := fun a =>
  if region.base ≤ a then (m.bytes region)[a - region.base]? else none

def byte? (m : Memory) : ByteMap := fun a => (m.byteIn? .context a).or (m.byteIn? .stack a)

theorem byteIn?_add : m.byteIn? region (region.base + start) = (m.bytes region)[start]? := by
  rw [byteIn?, if_pos (Nat.le_add_right ..), Nat.add_sub_cancel_left]

theorem isSome_byteIn?_iff : (m.byteIn? region a).isSome ↔
    region.base ≤ a ∧ a < region.base + (m.bytes region).size := by
  unfold byteIn?
  split
  · rw [isSome_getElem?]
    omega
  · simp only [Option.isSome_none, Bool.false_eq_true, false_iff]
    omega

theorem isSome_byte?_iff : (m.byte? a).isSome ↔ Mapped m.context.size a := by
  rw [byte?, Option.isSome_or, Bool.or_eq_true, isSome_byteIn?_iff, isSome_byteIn?_iff]
  simp only [bytes, Region.base, m.stack_size, Mapped]

theorem context_ne_stack : Region.context ≠ .stack := nofun

theorem byteIn?_eq_none {other : Region} (hne : other ≠ region)
    (h : start < (m.bytes region).size) : m.byteIn? other (region.base + start) = none := by
  have hcontext := m.context_le
  have hgap : contextBase + maxContext ≤ stackBase := by decide
  rw [← Option.not_isSome_iff_eq_none, isSome_byteIn?_iff]
  cases other with
  | context =>
    cases region with
    | context => exact absurd rfl hne
    | stack =>
      simp only [Region.base, bytes]
      omega
  | stack =>
    cases region with
    | context =>
      simp only [Region.base, bytes] at h ⊢
      omega
    | stack => exact absurd rfl hne

theorem byte?_add (h : start < (m.bytes region).size) :
    m.byte? (region.base + start) = (m.bytes region)[start]? := by
  rw [← byteIn?_add, byte?]
  cases region with
  | context => rw [byteIn?_eq_none context_ne_stack.symm h, Option.or_none]
  | stack => rw [byteIn?_eq_none context_ne_stack h, Option.none_or]

theorem byte?_contextBase_add (h : start < m.context.size) :
    m.byte? (contextBase + start) = m.context[start]? := @byte?_add m .context start h

theorem byte?_stackBase_add (h : start < stackSize) :
    m.byte? (stackBase + start) = m.stack[start]? :=
  @byte?_add m .stack start (Nat.lt_of_lt_of_eq h m.stack_size.symm)

/-! ### Loads and stores -/

theorem covered_iff (hpos : 1 ≤ len) (hlen : len ≤ 8) : Covered m.context.size addr len ↔
    ∃ found, m.locate? addr len = some found := by
  rw [exists_locate?_iff]
  constructor
  · intro h
    -- The first and the last address lie in the same region, since the gap is wider than an access.
    have hfirst := h 0 hpos
    have hlast := h (len - 1) (by omega)
    have hcontext := m.context_le
    simp only [Mapped, contextBase, stackBase, maxContext] at hfirst hlast hcontext
    rcases hfirst with hfirst | hfirst
    · exact ⟨.context, addr.toNat - contextBase, by simp only [Region.base, contextBase]; omega,
        by simp only [bytes, contextBase]; omega⟩
    · exact ⟨.stack, addr.toNat - stackBase, by simp only [Region.base, stackBase]; omega,
        by simp only [bytes, stackBase, m.stack_size]; omega⟩
  · rintro ⟨region, start, ha, hle⟩ k hk
    rw [← isSome_byte?_iff, ha, Nat.add_assoc, byte?_add (by omega), isSome_getElem?]
    omega

theorem locate?_eq_none_iff (hpos : 1 ≤ len) (hlen : len ≤ 8) :
    m.locate? addr len = none ↔ ¬ Covered m.context.size addr len := by
  rw [covered_iff hpos hlen, not_exists, Option.eq_none_iff_forall_ne_some]

theorem load_of_locate? (h : m.locate? addr len = some (region, start)) :
    m.load addr len = .ok (readLittle (m.bytes region) start len) := by
  rw [load, h]
  cases region <;> rfl

theorem toNat_of_load (hlen : len ≤ 8) (h : m.load addr len = .ok value) : value.toNat =
    littleEndian (fun k => (m.byte? (addr.toNat + k)).getD 0) len := by
  cases hf : m.locate? addr len with
  | none =>
    rw [load, hf] at h
    cases h
  | some found =>
    obtain ⟨region, start⟩ := found
    obtain ⟨ha, hle⟩ := locate?_eq_some hf
    rw [load_of_locate? hf] at h
    cases h
    rw [toNat_readLittle _ _ hlen]
    apply littleEndian_congr
    intro k hk
    rw [ha, Nat.add_assoc, byte?_add (by omega), Array.getD_eq_getD_getElem?]

theorem byteIn?_write (h : start + len ≤ (m.bytes region).size) :
    (m.write region start len value).byteIn? region a =
      if region.base + start ≤ a ∧ a < region.base + start + len then
        some (byteOf value (a - (region.base + start)))
      else m.byteIn? region a := by
  have hbytes : (m.write region start len value).bytes region =
      writeLittle (m.bytes region) start len value := by cases region <;> rfl
  rw [byteIn?, byteIn?, hbytes, getElem?_writeLittle _ _ h]
  by_cases ha : region.base ≤ a
  · rw [if_pos ha, if_pos ha, Nat.sub_sub]
    congr 1
    rw [eq_iff_iff]
    omega
  · rw [if_neg ha, if_neg ha, if_neg (by omega)]

theorem byteIn?_write_of_ne {other : Region} (h : other ≠ region) :
    (m.write region start len value).byteIn? other = m.byteIn? other := by
  have hbytes : (m.write region start len value).bytes other = m.bytes other := by
    cases region <;> cases other <;> first | rfl | contradiction
  unfold byteIn?
  rw [hbytes]

/-- A write puts its bytes at its addresses and leaves every other byte of both regions. -/
theorem byte?_write (h : start + len ≤ (m.bytes region).size) :
    (m.write region start len value).byte? a =
      if region.base + start ≤ a ∧ a < region.base + start + len then
        some (byteOf value (a - (region.base + start)))
      else m.byte? a := by
  unfold byte?
  cases region with
  | context =>
    rw [byteIn?_write h, byteIn?_write_of_ne context_ne_stack.symm]
    split <;> rfl
  | stack =>
    rw [byteIn?_write h, byteIn?_write_of_ne context_ne_stack]
    split
    · rename_i ha
      obtain ⟨k, rfl⟩ := Nat.exists_eq_add_of_le (Nat.le_trans (Nat.le_add_right ..) ha.1)
      have hk : start ≤ k ∧ k < (m.bytes .stack).size := by omega
      rw [byteIn?_eq_none context_ne_stack hk.2, Option.none_or]
    · rfl

end Memory

end Ebpf
