import Ebpf.Instruction.Assembly
import Ebpf.Proofs.Arithmetic
import Ebpf.Proofs.Machine.Registers
import Ebpf.Proofs.Machine.Start
import Ebpf.Proofs.Machine.Step

/-! # Arithmetic instructions

An arithmetic instruction puts the integer result of its operation, cut to the width of its class,
into its destination. It fails for a division by zero at that width, and for the operation bits that
stand for nothing.
-/

namespace Ebpf

open Assembly

theorem AluOperation.ofBits?_bits (op : ArithmeticOp) :
    ofBits? op.bits = some (.arithmetic op) := by
  cases op <;> rfl

theorem ArithmeticOp.bits_injective : Function.Injective bits := by
  intro op other h
  have heq := congrArg AluOperation.ofBits? h
  rw [AluOperation.ofBits?_bits, AluOperation.ofBits?_bits] at heq
  cases heq
  rfl

theorem exists_bits_or (opcode : UInt8) : (∃ op : ArithmeticOp, op.bits = opcode &&& 0xf0) ∨
    opcode &&& 0xf0 = 0xd0 ∨ opcode &&& 0xf0 = 0xe0 ∨ opcode &&& 0xf0 = 0xf0 := by
  have all (bits : BitVec 8) :
      (⟨bits⟩ &&& 0xf0 : UInt8) ∈ [.add, .sub, .mul, .div, .or, .and, .lsh, .rsh, .neg, .mod, .xor,
          .mov, .arsh].map ArithmeticOp.bits ∨
        (⟨bits⟩ &&& 0xf0 : UInt8) = 0xd0 ∨ (⟨bits⟩ &&& 0xf0 : UInt8) = 0xe0 ∨
          (⟨bits⟩ &&& 0xf0 : UInt8) = 0xf0 := by
    revert bits; decide +kernel
  rcases all opcode.toBitVec with h | h
  · obtain ⟨op, -, hop⟩ := List.mem_map.mp h
    exact Or.inl ⟨op, hop⟩
  · exact Or.inr h

namespace Instruction

variable {i : Instruction} {op : ArithmeticOp} {pc : Nat} {regs : Registers}

def aluWidth (i : Instruction) : Nat := if i.cls = .alu64 then 64 else 32

/-- The operation bits stand for nothing, or they ask to negate a register by another one. -/
def Meaningless (i : Instruction) : Prop :=
  i.operation = 0xe0 ∨ i.operation = 0xf0 ∨
    i.operation = ArithmeticOp.neg.bits ∧ i.usesSource = true

/-- The number of `w` bits that the second operand holds, if it can be read. -/
def sourceNumber? (i : Instruction) (w : Nat) (regs : Registers) : Option Nat :=
  if i.usesSource then (regs.get? i.src).map (·.toNat % 2 ^ w) else some (wrap w i.imm.toInt)

theorem aluWidth_le (i : Instruction) : i.aluWidth ≤ 64 := by
  unfold aluWidth
  split <;> decide

theorem toNat_immediate (i : Instruction) : i.immediate.toNat = wrap 64 i.imm.toInt := by
  rw [← Int32.toInt_toInt64, ← Int64.toInt_toBitVec, wrap_toInt]
  rfl

theorem exists_operand {w b : Nat} (pc : Nat) (hw : w ≤ 64)
    (h : i.sourceNumber? w regs = some b) :
    ∃ value, i.operand pc regs = .ok value ∧ value.toNat % 2 ^ w = b := by
  unfold sourceNumber? at h
  unfold operand
  split at h
  · rename_i hs
    obtain ⟨value, hvalue, hb⟩ := Option.map_eq_some_iff.mp h
    exact ⟨value, by rw [if_pos hs, regs.read_of_get? hvalue], hb⟩
  · rename_i hs
    cases h
    exact ⟨i.immediate, if_neg hs, by rw [toNat_immediate, wrap_mod hw]⟩

theorem evaluate_eq (i : Instruction) (op : ArithmeticOp) (a b : UInt64) :
    (i.evaluate op a b).map UInt64.toNat =
    if op.Divides ∧ b.toNat % 2 ^ i.aluWidth = 0 then none
    else some (op.result i.aluWidth (a.toNat % 2 ^ i.aluWidth) (b.toNat % 2 ^ i.aluWidth)) := by
  unfold evaluate aluWidth
  split
  · rw [op.eval64_eq, Nat.mod_eq_of_lt a.toNat_lt, Nat.mod_eq_of_lt b.toNat_lt]
    split
    · rfl
    · exact congrArg some (op.toNat_evalBits a.toBitVec b.toBitVec)
  · rw [op.eval32_eq, ← UInt64.toNat_toUInt32, ← UInt64.toNat_toUInt32]
    split
    · rfl
    · exact congrArg some (op.toNat_evalBits a.toUInt32.toBitVec b.toUInt32.toBitVec)

theorem aluOperation?_of_bits (hop : op.bits = i.operation) :
    i.aluOperation? = some (.arithmetic op) := by
  rw [aluOperation?, ← hop, AluOperation.ofBits?_bits]

theorem exists_bits (hend : i.operation ≠ 0xd0) (h : ¬ i.Meaningless) :
    ∃ op : ArithmeticOp, op.bits = i.operation := by
  rcases exists_bits_or i.opcode with hop | hop | hop | hop
  · exact hop
  · exact absurd hop hend
  · exact absurd (Or.inl hop) h
  · exact absurd (Or.inr (Or.inl hop)) h

end Instruction

namespace Machine

variable {m : Machine} {s : State} {i : Instruction} {op : ArithmeticOp} {a b : UInt64}

theorem effect_of_alu (hc : i.cls = .alu ∨ i.cls = .alu64) (pc : Nat) :
    m.effect i pc s = (i.aluQuery pc).eval (m.answer pc s) := by
  rcases hc with hc | hc <;> simp only [effect, query, hc]

theorem effect_of_aluOperation?_eq_none (hc : i.cls = .alu ∨ i.cls = .alu64)
    (ha : s.regs.get? i.dst = some a) (hop : i.aluOperation? = none) (pc : Nat) :
    m.effect i pc s = .error (.fault (i.invalid pc)) := by
  rw [effect_of_alu hc, Instruction.aluQuery, Query.eval_fetch_bind_of_ok (answer_of_get? ha), hop]
  rfl

/-- Operations that mean nothing are refused before the second operand is read. -/
theorem effect_of_meaningless (hc : i.cls = .alu ∨ i.cls = .alu64)
    (ha : s.regs.get? i.dst = some a) (h : i.Meaningless) (pc : Nat) :
    m.effect i pc s = .error (.fault (i.invalid pc)) := by
  rcases h with h | h | ⟨h, hs⟩
  · exact effect_of_aluOperation?_eq_none hc ha (by rw [Instruction.aluOperation?, h]; rfl) pc
  · exact effect_of_aluOperation?_eq_none hc ha (by rw [Instruction.aluOperation?, h]; rfl) pc
  · have hop := Instruction.aluOperation?_of_bits h.symm
    rw [effect_of_alu hc, Instruction.aluQuery, Query.eval_fetch_bind_of_ok (answer_of_get? ha), hop]
    dsimp only
    rw [if_pos ⟨rfl, hs⟩]
    rfl

theorem effect_of_arithmetic (hc : i.cls = .alu ∨ i.cls = .alu64)
    (ha : s.regs.get? i.dst = some a) (hop : op.bits = i.operation)
    (hneg : ¬ (op = .neg ∧ i.usesSource = true)) {pc : Nat} (hb : i.operand pc s.regs = .ok b) :
    m.effect i pc s = match i.evaluate op a b with
      | some value => .ok (.write i.dst value)
      | none => .error (.fault (.divisionByZero pc)) := by
  rw [effect_of_alu hc, Instruction.aluQuery, Query.eval_fetch_bind_of_ok (answer_of_get? ha),
    Instruction.aluOperation?_of_bits hop]
  dsimp only
  rw [if_neg hneg, eval_operandQuery_bind hb]
  cases i.evaluate op a b <;> rfl

/-- The outcome of an arithmetic instruction on operands that can be read. -/
theorem step_arithmetic (hi : m.instruction? s = some i) (hc : i.cls = .alu ∨ i.cls = .alu64)
    (hdst : i.dst < framePointer) (hend : i.operation ≠ 0xd0) :
    (i.Meaningless → m.step s = .trap (.fault (.invalidOpcode i.opcode s.pc)) s.fetched) ∧
    (¬ i.Meaningless → ∃ (op : ArithmeticOp) (x : UInt64), op.bits = i.operation ∧
      s.regs.get? i.dst = some x ∧ ∀ b, i.sourceNumber? i.aluWidth s.regs = some b →
        (op.Divides ∧ b = 0 → m.step s = .trap (.fault (.divisionByZero s.pc)) s.fetched) ∧
        (¬ (op.Divides ∧ b = 0) → ∃ v : UInt64,
          v.toNat = op.result i.aluWidth (x.toNat % 2 ^ i.aluWidth) b ∧
            m.step s = .next { s.fetched with regs := s.regs.set i.dst v })) := by
  obtain ⟨x, hx⟩ := s.regs.exists_get? hdst
  constructor
  · intro h
    exact step_of_error hi (effect_of_meaningless hc hx h s.pc)
  · intro h
    obtain ⟨op, hop⟩ := Instruction.exists_bits hend h
    have hneg : ¬ (op = .neg ∧ i.usesSource = true) := by
      rintro ⟨rfl, hs⟩
      exact h (Or.inr (Or.inr ⟨hop.symm, hs⟩))
    refine ⟨op, x, hop, hx, fun b hb => ?_⟩
    obtain ⟨y, hy, rfl⟩ := Instruction.exists_operand s.pc i.aluWidth_le hb
    have he := effect_of_arithmetic (m := m) hc hx hop hneg hy
    have hvalue := i.evaluate_eq op x y
    constructor
    · intro hzero
      rw [if_pos hzero, Option.map_eq_none_iff] at hvalue
      rw [hvalue] at he
      exact step_of_error hi he
    · intro hzero
      rw [if_neg hzero, Option.map_eq_some_iff] at hvalue
      obtain ⟨v, hv, hnum⟩ := hvalue
      rw [hv] at he
      refine ⟨v, hnum, ?_⟩
      rw [step_of_ok hi he]
      exact if_pos hdst

/-- Operations on R1: a signed shift by R2, a division by R3, and a negation that names R2. -/
def computing : Machine := ofCode
  #[alu32Reg ArithmeticOp.arsh.bits 1 2, alu32Reg ArithmeticOp.div.bits 1 3,
    alu64Reg ArithmeticOp.neg.bits 1 2] .empty .empty

def computingState (pc : Nat) : State :=
  { State.initial .blank with
    regs := (((Registers.initial stackTop).set 1 0x80000000).set 2 33).set 3 0x100000000, pc }

theorem step_arithmetic_computing :
    (∃ v : UInt64, v.toNat = 0xc0000000 ∧ computing.step (computingState 0) =
      .next { (computingState 0).fetched with regs := (computingState 0).regs.set 1 v }) ∧
    computing.step (computingState 1) =
      .trap (.fault (.divisionByZero 1)) (computingState 1).fetched ∧
    computing.step (computingState 2) =
      .trap (.fault (.invalidOpcode 0x8f 2)) (computingState 2).fetched := by
  refine ⟨?_, ?_, ?_⟩
  · obtain ⟨-, h⟩ := step_arithmetic (m := computing) (s := computingState 0) rfl (Or.inl rfl)
      (by decide) (by decide)
    obtain ⟨op, x, hop, hx, h⟩ := h (by unfold Instruction.Meaningless; decide)
    obtain rfl : op = .arsh := ArithmeticOp.bits_injective hop
    obtain rfl : x = 0x80000000 := Option.some.inj (hx.symm.trans rfl)
    obtain ⟨-, h⟩ := h 33 rfl
    exact h (by decide)
  · obtain ⟨-, h⟩ := step_arithmetic (m := computing) (s := computingState 1) rfl (Or.inl rfl)
      (by decide) (by decide)
    obtain ⟨op, x, hop, -, h⟩ := h (by unfold Instruction.Meaningless; decide)
    obtain rfl : op = .div := ArithmeticOp.bits_injective hop
    obtain ⟨h, -⟩ := h 0 rfl
    exact h (by decide)
  · exact (step_arithmetic (m := computing) (s := computingState 2) rfl (Or.inr rfl)
      (by decide) (by decide)).1 (Or.inr (Or.inr ⟨rfl, rfl⟩))

end Machine

end Ebpf
