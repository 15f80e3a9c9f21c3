import Ebpf.Proofs.Machine.Arithmetic
import Ebpf.Proofs.Machine.Diagnosis
import Ebpf.Proofs.Machine.HelperCall

/-! # Faults and their culprits

A fault that the machine raises itself names the instruction that it executes, or the second slot of
that instruction, and what it says of it is true: the opcode stands there, the register is an
operand that does not exist or a destination that must not be written, the divisor is zero, the call
asks for no helper. A run that is stopped for its budget has used it up.
-/

namespace Ebpf

open Assembly

theorem AluOperation.bits_of_ofBits? {bits : UInt8} {op : ArithmeticOp}
    (h : ofBits? bits = some (.arithmetic op)) : op.bits = bits := by
  unfold ofBits? at h
  split at h <;> cases h <;> rfl

theorem Registers.framePointer_lt_of_get?_eq_none {r : Registers} {reg : UInt8}
    (h : r.get? reg = none) : framePointer < reg := by
  have hle : registerCount ≤ reg.toNat := by simpa [get?] using h
  exact UInt8.lt_iff_toNat_lt.mpr hle

namespace Instruction

variable {i : Instruction} {pc : Nat} {regs : Registers}

/-- A quotient or a remainder whose divisor is zero at the width of the class. -/
def DividesByZero (i : Instruction) (regs : Registers) : Prop :=
  (i.cls = .alu ∨ i.cls = .alu64) ∧
    (i.operation = ArithmeticOp.div.bits ∨ i.operation = ArithmeticOp.mod.bits) ∧
    i.sourceNumber? i.aluWidth regs = some 0

theorem sourceNumber?_of_operand {w : Nat} {b : UInt64} (hw : w ≤ 64)
    (h : i.operand pc regs = .ok b) : i.sourceNumber? w regs = some (b.toNat % 2 ^ w) := by
  unfold operand at h
  unfold sourceNumber?
  split at h
  · rename_i hs
    rw [if_pos hs, regs.get?_of_read h]
    rfl
  · rename_i hs
    cases h
    rw [if_neg hs, toNat_immediate, wrap_mod hw]

theorem dividesByZero_of_evaluate {op : ArithmeticOp} {a b : UInt64}
    (hc : i.cls = .alu ∨ i.cls = .alu64) (hop : i.aluOperation? = some (.arithmetic op))
    (hb : i.operand pc regs = .ok b) (hnone : i.evaluate op a b = none) : i.DividesByZero regs := by
  have hvalue := i.evaluate_eq op a b
  rw [hnone] at hvalue
  split at hvalue
  · rename_i hzero
    obtain ⟨hdiv, hb0⟩ := hzero
    have hbits := AluOperation.bits_of_ofBits? hop
    refine ⟨hc, ?_, ?_⟩
    · rcases hdiv with rfl | rfl
      · exact Or.inl hbits.symm
      · exact Or.inr hbits.symm
    · rw [sourceNumber?_of_operand i.aluWidth_le hb, hb0]
  · cases hvalue

end Instruction

namespace Machine

/-- What a fault says is true of the code and of the state in which it is raised. Of an access to
memory and of a counter outside of the code nothing is said here, and other faults are not the
machine's. -/
def Confirms (m : Machine) (s : State) : Fault → Prop
  | .invalidOpcode opcode pc =>
    (∃ word, m.code[pc]? = some word ∧ word.toUInt8 = opcode) ∧
      (pc = s.pc ∨ pc = s.pc + 1 ∧ ∃ i, m.instruction? s = some i ∧ i.isWide = true)
  | .invalidRegister reg pc => pc = s.pc ∧ ∃ i, m.instruction? s = some i ∧
      (reg = i.dst ∨ reg = i.src) ∧ framePointer ≤ reg ∧
      (reg = framePointer → reg = i.dst ∧ i.target? = some reg)
  | .divisionByZero pc => pc = s.pc ∧ ∃ i, m.instruction? s = some i ∧ i.DividesByZero s.regs
  | .unsupportedCall pc => pc = s.pc ∧ ∃ i, m.instruction? s = some i ∧ i.IsCall ∧ i.src ≠ 0
  | .stepLimitExceeded limit => limit = m.budget ∧ m.budget.toNat ≤ s.steps
  | .outOfBounds _ _ | .pcOutOfRange _ => True
  | .helperFailed _ _ | .invalidTransition _ | .contextTooLarge _ => False

variable {m : Machine} {s u : State} {i : Instruction} {f : Fault}

theorem confirms_of_meets (hi : m.instruction? s = some i) (h : i.Meets s.pc s.regs f) :
    m.Confirms s f := by
  cases h with
  | opcode =>
    obtain ⟨word, hword, rfl⟩ := instruction?_eq_some_iff.mp hi
    exact ⟨⟨word, hword, rfl⟩, Or.inl rfl⟩
  | register hreg hnone =>
    have hlt := Registers.framePointer_lt_of_get?_eq_none hnone
    refine ⟨rfl, i, hi, hreg, UInt8.le_of_lt hlt, ?_⟩
    rintro rfl
    exact absurd hlt (UInt8.lt_irrefl _)
  | divisor hc hop hb hnone =>
    exact ⟨rfl, i, hi, Instruction.dividesByZero_of_evaluate hc hop hb hnone⟩
  | bounds => trivial

theorem confirms_of_rejects (hi : m.instruction? s = some i)
    (h : m.Rejects i s.pc s.regs (.fault f)) : m.Confirms s f := by
  generalize hcause : Trap.fault f = cause at h
  cases h with
  | call hc he =>
    subst hcause
    obtain ⟨hsrc, rfl⟩ := called_fault he
    exact ⟨rfl, i, hi, hc, hsrc⟩
  | met h =>
    cases hcause
    exact confirms_of_meets hi h
  | wide hw h =>
    cases hcause
    cases h with
    | missing => trivial
    | opcode hnext => exact ⟨⟨_, hnext, rfl⟩, Or.inr ⟨rfl, i, hi, hw⟩⟩

theorem confirms_of_raises (h : m.Raises s (.fault f)) : m.Confirms s f ∨
    ∃ c g, m.helperCall? s = some c ∧ c.result = .error g ∧ f = g.raisedBy c.id := by
  generalize hcause : Trap.fault f = cause at h
  cases h with
  | unfetched => cases hcause; exact Or.inl trivial
  | rejected hi h => subst hcause; exact Or.inl (confirms_of_rejects hi h)
  | frozen hi ht hdst =>
    cases hcause
    exact Or.inl ⟨rfl, _, hi, Or.inl rfl, UInt8.not_lt.mp hdst, fun _ => ⟨rfl, ht⟩⟩
  | outside => cases hcause; exact Or.inl trivial
  | @failed c g h hg => cases hcause; exact Or.inr ⟨c, g, h, hg, rfl⟩

theorem confirms_of_turn (h : m.turn s = .trap (.fault f) u) : m.Confirms s f ∨
    ∃ c g, s.steps < m.budget.toNat ∧ m.helperCall? s = some c ∧ c.result = .error g ∧
      f = g.raisedBy c.id := by
  by_cases hlt : s.steps < m.budget.toNat
  · rw [turn_of_lt hlt] at h
    rcases confirms_of_raises (raises_of_step h) with hf | ⟨c, g, hcall⟩
    · exact Or.inl hf
    · exact Or.inr ⟨c, g, hlt, hcall⟩
  · have hle := Nat.le_of_not_lt hlt
    rw [turn, if_pos hle] at h
    cases h
    exact Or.inl ⟨rfl, hle⟩

/-- A run that ends in a fault ends in a state that confirms it, or in the call of a helper that
fails. -/
theorem exists_confirms_of_run (h : m.run s = (.error (.fault f), u)) :
    ∃ t, m.Reaches s t ∧ m.turn t = .trap (.fault f) u ∧
      (m.Confirms t f ∨ ∃ c g, m.Executes s t ∧ m.helperCall? t = some c ∧ c.result = .error g ∧
        f = g.raisedBy c.id) := by
  obtain ⟨t, hr, ht⟩ := run_error_turn h
  refine ⟨t, hr, ht, ?_⟩
  rcases confirms_of_turn ht with hf | ⟨c, g, hlt, hcall⟩
  · exact Or.inl hf
  · exact Or.inr ⟨c, g, ⟨hr, hlt⟩, hcall⟩

/-- A 32-bit division by a wide constant whose low 32 bits are zero. -/
def dividingByHighBits : Machine := ofCode
  (lddw 1 0x100000000 ++ [alu32Reg ArithmeticOp.div.bits 0 1, exit]).toArray .empty .empty

theorem exists_confirms_of_run_dividingByHighBits : ∃ t i,
    dividingByHighBits.Executes (.initial .blank) t ∧ t.pc = 2 ∧
      dividingByHighBits.instruction? t = some i ∧ i.DividesByZero t.regs := by
  have hexec : dividingByHighBits.Executes (.initial .blank)
      { State.initial .blank with
        regs := (Registers.initial stackTop).set 1 0x100000000, pc := 2, steps := 1 } :=
    ⟨.single rfl, by decide⟩
  have hrun : dividingByHighBits.run (.initial .blank) = (.error (.fault (.divisionByZero 2)), _) :=
    run_of_trap hexec rfl
  obtain ⟨t, hr, ht, ⟨hpc, i, hi, hdiv⟩ | ⟨c, g, -, hc, -⟩⟩ := exists_confirms_of_run hrun
  · have hlt : t.steps < dividingByHighBits.budget.toNat := by
      apply Nat.lt_of_not_le
      intro hle
      rw [turn, if_pos hle] at ht
      cases ht
    exact ⟨t, i, ⟨hr, hlt⟩, hpc.symm, hi, hdiv⟩
  · obtain ⟨-, hreg, -⟩ := helperCall?_iff_authorised.mp hc
    cases hreg

end Machine

end Ebpf
