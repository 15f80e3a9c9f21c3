import Ebpf.Instruction.Assembly
import Ebpf.Proofs.Arithmetic
import Ebpf.Proofs.Machine.ByteOrder

/-! # Ordinary loads

A memory operand lies at the sum of a register and the signed offset of the instruction. What a load
puts into its register depends on the memory, the address and the size alone. Behind a write to the
same place, it is what the write left of its word.
-/

namespace Ebpf

open Assembly

theorem toNat_add_toUInt64 (base : UInt64) (n : Int64) :
    (base + n.toUInt64).toNat = wrap 64 (base.toNat + n.toInt) := by
  have hbase : BitVec.ofInt 64 base.toNat = base.toBitVec := by
    rw [BitVec.ofInt_natCast]
    exact BitVec.ofNat_toNat ..
  have hn : BitVec.ofInt 64 n.toInt = n.toUInt64.toBitVec := BitVec.ofInt_toInt ..
  rw [← toNat_ofInt, BitVec.ofInt_add, hbase, hn]
  rfl

namespace AccessSize

variable (size : AccessSize)

theorem bytes_le : size.bytes ≤ 8 := by
  cases size <;> decide

end AccessSize

namespace Instruction

variable {i : Instruction} {regs : Registers} {reg : UInt8} {size : AccessSize}
  {addr base : UInt64} {pc : Nat} {s : State}

/-- The address that a register and the offset of the instruction make up. -/
def Addresses (i : Instruction) (regs : Registers) (reg : UInt8) (addr : UInt64) : Prop :=
  ∃ base, regs.get? reg = some base ∧ addr.toNat = wrap 64 (base.toNat + i.off.toInt)

structure Loads (i : Instruction) (regs : Registers) (size : AccessSize) (addr : UInt64) :
    Prop where
  cls : i.cls = .ldx
  mode : i.mode? = some .memory
  size : i.size = size
  address : i.Addresses regs i.src addr
  dst : i.dst < framePointer

theorem toNat_address (i : Instruction) (base : UInt64) :
    (i.address base).toNat = wrap 64 (base.toNat + i.off.toInt) := by
  rw [← Int16.toInt_toInt64]
  exact toNat_add_toUInt64 base i.off.toInt64

theorem addresses_iff :
    i.Addresses regs reg addr ↔ ∃ base, regs.get? reg = some base ∧ addr = i.address base := by
  simp only [Addresses, ← toNat_address, UInt64.toNat_inj]

end Instruction

namespace Machine

variable {m : Machine} {s : State} {i : Instruction} {size : AccessSize} {addr value : UInt64}

theorem effect_of_loads (h : i.Loads s.regs size addr) (pc : Nat) : m.effect i pc s =
    ((s.memory.load addr size.bytes).map (.write i.dst)).mapError .fault := by
  obtain ⟨base, hbase, rfl⟩ := Instruction.addresses_iff.mp h.address
  have hquery : m.query i pc = i.loadQuery pc := by simp only [query, h.cls]
  rw [effect, hquery, Instruction.loadQuery, if_pos h.mode,
    Query.eval_fetch_bind_of_ok (answer_of_get? hbase), h.size]
  exact Query.eval_fetch_map _

theorem step_of_loads (hi : m.instruction? s = some i) (h : i.Loads s.regs size addr)
    (hload : s.memory.load addr size.bytes = .ok value) :
    m.step s = .next { s.fetched with regs := s.regs.set i.dst value } := by
  have he := effect_of_loads (m := m) h s.pc
  rw [hload] at he
  rw [step_of_ok hi he]
  exact if_pos h.dst

theorem step_of_loads_error {f : Fault} (hi : m.instruction? s = some i)
    (h : i.Loads s.regs size addr) (hload : s.memory.load addr size.bytes = .error f) :
    m.step s = .trap (.fault f) s.fetched := by
  have he := effect_of_loads (m := m) h s.pc
  rw [hload] at he
  exact step_of_error hi he

end Machine

namespace Memory

variable {m : Memory} {region : Region} {start len n : Nat} {size : AccessSize}
  {addr value : UInt64}

/-- Every instruction that loads from the address puts the number `n` into its register. -/
def Yields (memory : Memory) (size : AccessSize) (addr : UInt64) (n : Nat) : Prop :=
  ∀ (m : Machine) (s : State) (i : Instruction), s.memory = memory → m.instruction? s = some i →
    i.Loads s.regs size addr →
    ∃ t value, m.step s = .next t ∧ t.regs.get? i.dst = some value ∧ value.toNat = n

theorem yields_of_load (h : m.load addr size.bytes = .ok value) :
    m.Yields size addr value.toNat := by
  rintro machine s i rfl hi hl
  exact ⟨_, value, Machine.step_of_loads hi hl h, s.regs.get?_set_self hl.dst, rfl⟩

theorem exists_loads (memory : Memory) (size : AccessSize) (addr : UInt64) :
    ∃ (m : Machine) (s : State) (i : Instruction), s.memory = memory ∧ m.instruction? s = some i ∧
      i.Loads s.regs size addr := by
  have hi : Instruction.decode (ldx size.bits 0 1 0) =
      ⟨InstructionClass.ldx.bits ||| AccessMode.memory.bits ||| size.bits, 0, 1, 0, 0⟩ := by
    cases size <;> rfl
  have haddr : addr.toNat = wrap 64 (addr.toNat + (0 : Int16).toInt) := by
    rw [show (0 : Int16).toInt = 0 from rfl, Int.add_zero, wrap_natCast addr.toNat_lt]
  refine ⟨.ofCode #[ldx size.bits 0 1 0] .empty .empty (show 1 ≤ maxSlots by decide),
    { State.initial memory with regs := (Registers.initial stackTop).set 1 addr }, _, rfl,
    congrArg some hi, ?_⟩
  exact {
    cls := by cases size <;> rfl
    mode := by cases size <;> rfl
    size := by cases size <;> rfl
    address := ⟨addr, rfl, haddr⟩
    dst := show (0 : UInt8) < framePointer by decide }

/-- What loads yield at an address is determined by the memory. -/
theorem yields_iff : m.Yields size addr n ↔
    ∃ value, m.load addr size.bytes = .ok value ∧ value.toNat = n := by
  constructor
  · intro h
    obtain ⟨machine, s, i, rfl, hi, hl⟩ := exists_loads m size addr
    obtain ⟨t, value, ht, hget, hn⟩ := h machine s i rfl hi hl
    cases hload : s.memory.load addr size.bytes with
    | error f =>
      rw [Machine.step_of_loads_error hi hl hload] at ht
      cases ht
    | ok word =>
      rw [Machine.step_of_loads hi hl hload] at ht
      cases ht
      rw [s.regs.get?_set_self hl.dst] at hget
      cases hget
      exact ⟨_, rfl, hn⟩
  · rintro ⟨value, hload, rfl⟩
    exact yields_of_load hload

/-- A write moves no byte into another region. -/
theorem locate?_write (m : Memory) (region : Region) (start len : Nat) (value addr : UInt64)
    (count : Nat) : (m.write region start len value).locate? addr count = m.locate? addr count := by
  rw [locate?, locate?, size_context_write]

theorem load_write (hlen : len ≤ 8) (h : m.locate? addr len = some (region, start)) :
    ∃ word, (m.write region start len value).load addr len = .ok word ∧
      word.toNat = value.toNat % 256 ^ len := by
  obtain ⟨ha, hle⟩ := locate?_eq_some h
  have hload := load_of_locate? ((m.locate?_write region start len value addr len).trans h)
  refine ⟨_, hload, ?_⟩
  rw [toNat_of_load hlen hload, ← littleEndian_byteOf]
  apply littleEndian_congr
  intro k hk
  rw [byte?_write hle, if_pos (by omega), ha, Nat.add_sub_cancel_left, Option.getD_some]

theorem yields_write (h : m.locate? addr size.bytes = some (region, start)) :
    (m.write region start size.bytes value).Yields size addr
      (value.toNat % 2 ^ (8 * size.bytes)) := by
  obtain ⟨word, hload, hword⟩ := load_write size.bytes_le h
  rw [Nat.pow_mul, ← hword]
  exact yields_of_load hload

end Memory

end Ebpf
