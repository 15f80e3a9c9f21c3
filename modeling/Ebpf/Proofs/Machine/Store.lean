import Ebpf.Proofs.Machine.Arithmetic
import Ebpf.Proofs.Machine.Load

/-! # Stores

A store puts a word at its operand: the immediate, a register, or the sum of a register and what
the memory holds there. Loads of the same size yield the low bits of that word behind it, and all
other bytes are as they were. A store that fails leaves the whole memory as it was.
-/

namespace Ebpf

open Assembly

namespace Instruction

variable {i : Instruction} {s : State} {addr base value a b : UInt64} {size : AccessSize} {pc : Nat}

/-- The instruction adds a register to a word in memory. No other store in atomic mode is carried
out. -/
structure Adds (i : Instruction) : Prop where
  cls : i.cls = .stx
  mode : i.mode? = some .atomic
  imm : i.imm = 0
  wide : i.size.bytes = 4 ∨ i.size.bytes = 8

/-- The words that the instruction can put at an address, by its class and mode. -/
inductive StoredWord (i : Instruction) (s : State) (addr : UInt64) : UInt64 → Prop where
  | immediate (hc : i.cls = .st) (hm : i.mode? = some .memory) : StoredWord i s addr i.immediate
  | register {x : UInt64} (hc : i.cls = .stx) (hm : i.mode? = some .memory)
      (hx : s.regs.get? i.src = some x) : StoredWord i s addr x
  | sum {x old : UInt64} (ha : i.Adds) (hx : s.regs.get? i.src = some x)
      (hold : s.memory.load addr i.size.bytes = .ok old) :
      StoredWord i s addr (addAt i.size old x)

theorem bytes_eq_iff : size.bytes = 4 ∨ size.bytes = 8 ↔ size = .word ∨ size = .double := by
  cases size <;> decide

theorem toNat_addAt (hs : size.bytes = 4 ∨ size.bytes = 8) :
    (addAt size a b).toNat % 2 ^ (8 * size.bytes) =
      (a.toNat + b.toNat) % 2 ^ (8 * size.bytes) := by
  rcases bytes_eq_iff.mp hs with rfl | rfl
  · simp [addAt, AccessSize.bytes]
  · simp [addAt, AccessSize.bytes]

/-- What a store at `addr` leaves on its way from state `s` to state `u`. -/
structure Stored (i : Instruction) (s u : State) (addr : UInt64) : Prop where
  immediate : i.cls = .st → u.memory.Yields i.size addr (wrap (8 * i.size.bytes) i.imm.toInt)
  register : i.cls = .stx → i.mode? = some .memory → ∃ x, s.regs.get? i.src = some x ∧
    u.memory.Yields i.size addr (x.toNat % 2 ^ (8 * i.size.bytes))
  sum : i.Adds → ∃ x old, s.regs.get? i.src = some x ∧ s.memory.Yields i.size addr old ∧
    u.memory.Yields i.size addr ((old + x.toNat) % 2 ^ (8 * i.size.bytes))
  others : ∀ a, ¬ (addr.toNat ≤ a ∧ a < addr.toNat + i.size.bytes) →
    u.memory.byte? a = s.memory.byte? a

theorem StoredWord.stored {u : State} (h : i.StoredWord s addr value)
    (hv : u.memory.Yields i.size addr (value.toNat % 2 ^ (8 * i.size.bytes)))
    (hothers : ∀ a, ¬ (addr.toNat ≤ a ∧ a < addr.toNat + i.size.bytes) →
      u.memory.byte? a = s.memory.byte? a) : i.Stored s u addr := by
  cases h with
  | immediate hc hm =>
    have hbits : 8 * i.size.bytes ≤ 64 := Nat.mul_le_mul_left 8 i.size.bytes_le
    rw [toNat_immediate, wrap_mod hbits] at hv
    exact {
      immediate := fun _ => hv
      register := fun hstx => by cases hc.symm.trans hstx
      sum := fun ha => by cases hc.symm.trans ha.cls
      others := hothers }
  | register hc hm hx =>
    exact {
      immediate := fun hst => by cases hc.symm.trans hst
      register := fun _ _ => ⟨_, hx, hv⟩
      sum := fun ha => by cases hm.symm.trans ha.mode
      others := hothers }
  | sum ha hx hold =>
    rw [toNat_addAt ha.wide] at hv
    exact {
      immediate := fun hst => by cases hst.symm.trans ha.cls
      register := fun _ hm => by cases hm.symm.trans ha.mode
      sum := fun _ => ⟨_, _, hx, Memory.yields_of_load hold, hv⟩
      others := hothers }

end Instruction

namespace Machine

variable {m : Machine} {s u : State} {i : Instruction} {addr base : UInt64} {cause : Trap}
  {e : Effect}

theorem effect_of_store_eq_ok_iff (hc : i.cls = .st ∨ i.cls = .stx)
    (hb : s.regs.get? i.dst = some base) (pc : Nat) : m.effect i pc s = .ok e ↔
      ∃ value, i.StoredWord s (i.address base) value ∧
        e = .store (i.address base) i.size.bytes value := by
  rw [effect_of_store hc, Instruction.storeQuery, Query.eval_fetch_bind_of_ok (answer_of_get? hb)]
  constructor
  · intro h
    dsimp only at h
    split at h
    · rename_i hc hm
      cases h
      exact ⟨_, .immediate hc hm, rfl⟩
    · rename_i hc hm
      obtain ⟨x, hx, h⟩ := Query.eval_fetch_bind_eq_ok_iff.mp h
      cases h
      exact ⟨x, .register hc hm (s.regs.get?_of_read hx), rfl⟩
    · rename_i hc hm
      split at h
      · rename_i hadd
        obtain ⟨x, hx, h⟩ := Query.eval_fetch_bind_eq_ok_iff.mp h
        obtain ⟨old, hold, h⟩ := Query.eval_fetch_bind_eq_ok_iff.mp h
        cases h
        have ha : i.Adds := ⟨hc, hm, hadd.1, Instruction.bytes_eq_iff.mpr hadd.2⟩
        exact ⟨_, .sum ha (s.regs.get?_of_read hx) hold, rfl⟩
      · cases h
    · cases h
  · rintro ⟨value, h, rfl⟩
    cases h with
    | immediate hc hm =>
      simp only [hc, hm]
      rfl
    | register hc hm hx =>
      simp only [hc, hm]
      exact Query.eval_fetch_bind_of_ok (answer_of_get? hx)
    | sum ha hx hold =>
      have hadd : i.imm = 0 ∧ (i.size = .word ∨ i.size = .double) :=
        ⟨ha.imm, Instruction.bytes_eq_iff.mp ha.wide⟩
      simp only [ha.cls, ha.mode, if_pos hadd]
      rw [Query.eval_fetch_bind_of_ok (answer_of_get? hx)]
      exact Query.eval_fetch_bind_of_ok hold

theorem effect_of_store_refused (hc : i.cls = .st ∨ i.cls = .stx)
    (hb : s.regs.get? i.dst = some base) (hm : i.mode? ≠ some .memory) (ha : ¬ i.Adds) (pc : Nat) :
    m.effect i pc s = .error (.fault (i.invalid pc)) := by
  rw [effect_of_store hc, Instruction.storeQuery, Query.eval_fetch_bind_of_ok (answer_of_get? hb)]
  dsimp only
  split
  · rename_i hmode
    exact absurd hmode hm
  · rename_i hmode
    exact absurd hmode hm
  · rename_i hc hmode
    rw [if_neg fun hadd => ha ⟨hc, hmode, hadd.1, Instruction.bytes_eq_iff.mpr hadd.2⟩]
    rfl
  · rfl

theorem step_store_eq_next_iff (hi : m.instruction? s = some i) (hc : i.cls = .st ∨ i.cls = .stx)
    (haddr : i.Addresses s.regs i.dst addr) : m.step s = .next u ↔
      ∃ value region start, i.StoredWord s addr value ∧
        s.memory.locate? addr i.size.bytes = some (region, start) ∧
        u = { s.fetched with memory := s.memory.write region start i.size.bytes value } := by
  obtain ⟨base, hb, rfl⟩ := Instruction.addresses_iff.mp haddr
  constructor
  · intro h
    obtain ⟨j, e, hj, he, hcommit⟩ := step_next_cases h
    obtain rfl : i = j := Option.some.inj (hi.symm.trans hj)
    obtain ⟨value, hstored, rfl⟩ := (effect_of_store_eq_ok_iff hc hb s.pc).mp he
    rw [commit] at hcommit
    split at hcommit
    · rename_i region start hf
      cases hcommit
      exact ⟨value, region, start, hstored, hf, rfl⟩
    · cases hcommit
  · rintro ⟨value, region, start, hstored, hf, rfl⟩
    have he := (effect_of_store_eq_ok_iff (m := m) hc hb s.pc).mpr ⟨value, hstored, rfl⟩
    rw [step_of_ok hi he, commit, show s.fetched.memory = s.memory from rfl, hf]

theorem memory_of_step_trap (h : m.step s = .trap cause u) : u.memory = s.memory := by
  rcases step_trap_cases h with ⟨-, -, rfl⟩ | ⟨i, -, ⟨-, rfl⟩ | ⟨e, -, hcommit⟩⟩
  · rfl
  · rfl
  · exact (commit_trap_state hcommit).2.1

theorem stored_of_step (hi : m.instruction? s = some i) (hc : i.cls = .st ∨ i.cls = .stx)
    (haddr : i.Addresses s.regs i.dst addr) (h : m.step s = .next u) : i.Stored s u addr := by
  obtain ⟨value, region, start, hstored, hf, rfl⟩ := (step_store_eq_next_iff hi hc haddr).mp h
  apply hstored.stored (Memory.yields_write hf)
  intro a ha
  obtain ⟨hat, hle⟩ := Memory.locate?_eq_some hf
  rw [Memory.byte?_write hle, ← hat, if_neg ha]

theorem step_store_refused (hi : m.instruction? s = some i) (hc : i.cls = .st ∨ i.cls = .stx)
    (haddr : i.Addresses s.regs i.dst addr) (hm : i.mode? ≠ some .memory) (ha : ¬ i.Adds) :
    m.step s = .trap (.fault (.invalidOpcode i.opcode s.pc)) s.fetched := by
  obtain ⟨base, hb, rfl⟩ := Instruction.addresses_iff.mp haddr
  exact step_of_error hi (effect_of_store_refused hc hb hm ha s.pc)

/-- Behind a store that succeeds, loads of its size from its address yield the low bits of the
immediate, of the register, or of the sum of the register and what they yielded in front of it, and
every other byte is as it was. A store in another mode than these is refused as soon as its base
register is read. A store that traps leaves the memory as it was, and so every load. -/
theorem step_store (hi : m.instruction? s = some i) (hc : i.cls = .st ∨ i.cls = .stx) :
    (∀ addr, i.Addresses s.regs i.dst addr →
      (∀ u, m.step s = .next u → i.Stored s u addr) ∧
      (i.mode? ≠ some .memory → ¬ i.Adds →
        m.step s = .trap (.fault (.invalidOpcode i.opcode s.pc)) s.fetched)) ∧
    ∀ cause u, m.step s = .trap cause u → u.memory = s.memory :=
  ⟨fun _ haddr => ⟨fun _ => stored_of_step hi hc haddr, step_store_refused hi hc haddr⟩,
    fun _ _ => memory_of_step_trap⟩

/-- An immediate stored as a half word, a word added to it, an addition to a half word, and a store
behind the top of the stack. -/
def storing : Machine := ofCode
  #[st AccessSize.half.bits 10 (-8) (-2), xadd AccessSize.word.bits 10 (-8) 1,
    xadd AccessSize.half.bits 10 (-8) 1, stx AccessSize.half.bits 10 0 1]
  .empty .empty

def storingState (pc : Nat) (memory : Memory) : State where
  regs := (Registers.initial stackTop).set 1 5
  memory
  pc
  steps := 0

def halfStored : Memory := Memory.blank.write .stack 504 2 0xfffe

theorem step_store_storing :
    (∃ u, storing.step (storingState 0 .blank) = .next u ∧
      u.memory.Yields .half 0x200001f8 0xfffe) ∧
    (∃ u, storing.step (storingState 1 halfStored) = .next u ∧
      u.memory.Yields .word 0x200001f8 0x10003 ∧
      u.memory.byte? 0x200001fc = halfStored.byte? 0x200001fc) ∧
    storing.step (storingState 2 halfStored) =
      .trap (.fault (.invalidOpcode 0xcb 2)) (storingState 2 halfStored).fetched ∧
    ∃ cause u, storing.step (storingState 3 halfStored) = .trap cause u ∧
      u.memory = halfStored := by
  refine ⟨?_, ?_, ?_, ?_⟩
  · have hu : storing.step (storingState 0 .blank) = .next _ := rfl
    obtain ⟨h, -⟩ := step_store (m := storing) (s := storingState 0 .blank) rfl (Or.inl rfl)
    obtain ⟨hstored, -⟩ := h 0x200001f8 ⟨_, rfl, rfl⟩
    exact ⟨_, hu, (hstored _ hu).immediate rfl⟩
  · have hu : storing.step (storingState 1 halfStored) = .next _ := rfl
    obtain ⟨h, -⟩ := step_store (m := storing) (s := storingState 1 halfStored) rfl (Or.inr rfl)
    obtain ⟨hstored, -⟩ := h 0x200001f8 ⟨_, rfl, rfl⟩
    have hs := hstored _ hu
    obtain ⟨x, old, hx, hold, hsum⟩ := hs.sum ⟨rfl, rfl, rfl, Or.inl rfl⟩
    cases hx
    obtain ⟨value, hload, rfl⟩ := Memory.yields_iff.mp hold
    cases (show halfStored.load 0x200001f8 4 = .ok 0xfffe by decide +kernel).symm.trans hload
    exact ⟨_, hu, hsum, hs.others 0x200001fc (by decide)⟩
  · obtain ⟨h, -⟩ := step_store (m := storing) (s := storingState 2 halfStored) rfl (Or.inr rfl)
    obtain ⟨-, hrefused⟩ := h 0x200001f8 ⟨_, rfl, rfl⟩
    exact hrefused nofun fun ha => absurd ha.wide (by decide)
  · have hu : storing.step (storingState 3 halfStored) = .trap _ _ := rfl
    obtain ⟨-, h⟩ := step_store (m := storing) (s := storingState 3 halfStored) rfl (Or.inr rfl)
    exact ⟨_, _, hu, h _ _ hu⟩

end Machine

end Ebpf
