import Ebpf.Machine.Registers

/-! # Registers by number

A write to a general register changes that register and no other, and all registers but the frame
pointer start at zero. The argument list of a helper consists of the registers from R1 on.
-/

namespace Ebpf.Registers

variable (r : Registers) {reg other : UInt8} {value : UInt64}

theorem get?_set (h : reg < framePointer) :
    (r.set reg value).get? other = if other = reg then some value else r.get? other := by
  rw [set, dif_pos h, get?, get?, Vector.getElem?_set]
  by_cases ho : other = reg
  · rw [if_pos ho, if_pos (congrArg UInt8.toNat ho.symm)]
  · rw [if_neg ho, if_neg fun heq => ho (UInt8.toNat_inj.mp heq.symm)]

theorem get?_set_self (h : reg < framePointer) : (r.set reg value).get? reg = some value := by
  rw [r.get?_set h, if_pos rfl]

theorem get?_set_of_ne (h : other ≠ reg) : (r.set reg value).get? other = r.get? other := by
  by_cases hreg : reg < framePointer
  · rw [r.get?_set hreg, if_neg h]
  · rw [set, dif_neg hreg]

theorem get?_set_framePointer : (r.set reg value).get? framePointer = r.get? framePointer := by
  by_cases hreg : reg < framePointer
  · exact r.get?_set_of_ne (UInt8.ne_of_lt hreg).symm
  · rw [set, dif_neg hreg]

theorem exists_get? (h : reg < framePointer) : ∃ value, r.get? reg = some value :=
  ⟨_, Vector.getElem?_eq_getElem (lt_registerCount h)⟩

theorem read_of_get? {pc : Nat} (h : r.get? reg = some value) : r.read reg pc = .ok value := by
  rw [read, h]

theorem get?_of_read {pc : Nat} (h : r.read reg pc = .ok value) : r.get? reg = some value := by
  unfold read at h
  split at h
  · rename_i hget
    cases h
    exact hget
  · cases h

theorem get?_eq_none {reg : UInt8} (h : registerCount ≤ reg.toNat) : r.get? reg = none := by
  rw [get?]
  simp [h]

theorem get?_initial_framePointer (fp : UInt64) : (initial fp).get? framePointer = some fp := rfl

theorem get?_initial_of_lt (fp : UInt64) (h : reg < framePointer) :
    (initial fp).get? reg = some 0 := by
  have hlt : reg.toNat < 10 := UInt8.lt_iff_toNat_lt.mp h
  rw [get?, initial, Vector.getElem?_set_ne _ (Nat.ne_of_gt hlt), Vector.getElem?_replicate,
    if_pos (lt_registerCount h)]

theorem ext_get? {r r' : Registers} (h : ∀ reg, r.get? reg = r'.get? reg) : r = r' := by
  obtain ⟨values⟩ := r
  obtain ⟨values'⟩ := r'
  congr 1
  apply Vector.ext
  intro i hi
  have hreg : (UInt8.ofNat i).toNat = i :=
    UInt8.toNat_ofNat_of_lt' (Nat.lt_of_lt_of_le hi (by decide))
  have := h (.ofNat i)
  rw [get?, get?, hreg, Vector.getElem?_eq_getElem hi, Vector.getElem?_eq_getElem hi] at this
  exact Option.some.inj this

theorem argument_lt {n k : Nat} (h : n ≤ maxArguments) (hk : k < n) :
    (UInt8.ofNat (k + 1)).toNat = k + 1 ∧ k + 1 < registerCount := by
  have hlt : k + 1 < registerCount := Nat.lt_of_le_of_lt (Nat.le_trans hk h) (by decide)
  exact ⟨UInt8.toNat_ofNat_of_lt' (Nat.lt_of_lt_of_le hlt (by decide)), hlt⟩

theorem get?_argument {n k : Nat} (h : n ≤ maxArguments) (hk : k < n) :
    r.get? (.ofNat (k + 1)) = some (r.values.toArray.getD (k + 1) 0) := by
  obtain ⟨hreg, hlt⟩ := argument_lt h hk
  rw [get?, hreg]
  simp [hlt]

theorem map_some_arguments {n : Nat} (h : n ≤ maxArguments) : (r.arguments n).map some =
    (List.range n).map fun k => r.get? (.ofNat (k + 1)) := by
  rw [arguments, List.map_map]
  exact List.map_congr_left fun k hk => (r.get?_argument h (List.mem_range.mp hk)).symm

theorem map_read_arguments {n pc : Nat} (h : n ≤ maxArguments) :
    (List.range n).map (fun k => r.read (.ofNat (k + 1)) pc) = (r.arguments n).map .ok := by
  rw [arguments, List.map_map]
  exact List.map_congr_left fun k hk => r.read_of_get? (r.get?_argument h (List.mem_range.mp hk))

theorem take_arguments {n k : Nat} (h : n ≤ k) : (r.arguments k).take n = r.arguments n := by
  rw [arguments, arguments, ← List.map_take, List.take_range, Nat.min_eq_left h]

end Ebpf.Registers
