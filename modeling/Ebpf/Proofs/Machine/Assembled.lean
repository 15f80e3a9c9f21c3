import Ebpf.Proofs.Codec
import Ebpf.Proofs.Machine.Budget
import Ebpf.Proofs.Machine.Jump

/-! # Steps of assembled instructions

What the machine does when it fetches an instruction that was assembled, one lemma for each form of
instruction: 64-bit arithmetic, a conditional jump against an immediate, a jump without a condition,
and an exit. The steps of straight-line code follow from them one by one, and those of a counted
loop by induction on the rounds that are left.
-/

namespace Ebpf.Machine

open Assembly

variable {m : Machine} {s : State} {i : Instruction} {op : ArithmeticOp} {condition : Condition}
  {opcode dst src : UInt8} {off : Int16} {imm : Int32} {a b value : UInt64}

theorem instruction?_of_word (h : m.code[s.pc]? = some (word opcode dst src off imm))
    (hdst : dst ≤ framePointer) (hsrc : src ≤ framePointer) :
    m.instruction? s = some ⟨opcode, dst, src, off, imm⟩ := by
  rw [instruction?, h, Option.map_some, word, Instruction.decode_encode]
  dsimp only
  rw [and_fifteen_of_le hdst, and_fifteen_of_le hsrc]

/-! ### Arithmetic -/

/-- What the machine reads off the opcode of a 64-bit operation. -/
structure IsAlu64 (opcode : UInt8) (op : ArithmeticOp) (source : Bool) : Prop where
  cls : InstructionClass.ofOpcode opcode = .alu64
  operation : op.bits = opcode &&& 0xf0
  source : (opcode &&& 0x08 != 0) = source

theorem isAlu64_imm (op : ArithmeticOp) :
    IsAlu64 (InstructionClass.alu64.bits ||| op.bits) op false := by
  cases op <;> exact ⟨by decide, by decide, by decide⟩

theorem isAlu64_reg (op : ArithmeticOp) :
    IsAlu64 (InstructionClass.alu64.bits ||| op.bits ||| sourceBit) op true := by
  cases op <;> exact ⟨by decide, by decide, by decide⟩

theorem step_of_alu64 (hi : m.instruction? s = some i) (hc : i.cls = .alu64)
    (hop : op.bits = i.operation) (hneg : ¬ (op = .neg ∧ i.usesSource = true))
    (hdst : i.dst < framePointer) (ha : s.regs.get? i.dst = some a)
    (hb : i.operand s.pc s.regs = .ok b) (hv : op.eval64 a b = some value) :
    m.step s = .next { s.fetched with regs := s.regs.set i.dst value } := by
  have heval : i.evaluate op a b = some value := (if_pos hc).trans hv
  have he : m.effect i s.pc s = .ok (.write i.dst value) := by
    rw [effect_of_arithmetic (Or.inr hc) ha hop hneg hb, heval]
  rw [step_of_ok hi he]
  exact if_pos hdst

theorem step_alu64Imm (op : ArithmeticOp)
    (h : m.code[s.pc]? = some (alu64Imm op.bits dst imm))
    (hdst : dst < framePointer) (ha : s.regs.get? dst = some a)
    (hv : op.eval64 a imm.toInt64.toUInt64 = some value) :
    m.step s = .next { s.fetched with regs := s.regs.set dst value } := by
  have hi := instruction?_of_word h (UInt8.le_of_lt hdst) (by decide)
  obtain ⟨hc, hop, hs⟩ := isAlu64_imm op
  refine step_of_alu64 hi hc hop ?_ hdst ha ?_ hv
  · rintro ⟨-, hsource⟩
    exact absurd (hsource.symm.trans hs) (by decide)
  · exact if_neg (Bool.eq_false_iff.mp hs)

theorem step_alu64Reg (op : ArithmeticOp)
    (h : m.code[s.pc]? = some (alu64Reg op.bits dst src))
    (hneg : op ≠ .neg) (hdst : dst < framePointer) (hsrc : src ≤ framePointer)
    (ha : s.regs.get? dst = some a) (hb : s.regs.get? src = some b)
    (hv : op.eval64 a b = some value) :
    m.step s = .next { s.fetched with regs := s.regs.set dst value } := by
  have hi := instruction?_of_word h (UInt8.le_of_lt hdst) hsrc
  obtain ⟨hc, hop, hs⟩ := isAlu64_reg op
  refine step_of_alu64 hi hc hop (fun h => hneg h.1) hdst ha ?_ hv
  exact (if_pos hs).trans (s.regs.read_of_get? hb)

/-! ### Jumps and exits -/

theorem compares_jmpImm {regs : Registers} (ha : regs.get? dst = some a) :
    Instruction.Compares ⟨InstructionClass.jmp.bits ||| condition.bits, dst, 0, off, imm⟩ regs
      condition 64 a.toNat (wrap 64 imm.toInt) := by
  have hc : InstructionClass.ofOpcode (InstructionClass.jmp.bits ||| condition.bits) = .jmp := by
    cases condition <;> decide
  have hop : (InstructionClass.jmp.bits ||| condition.bits) &&& 0xf0 = condition.bits := by
    cases condition <;> decide
  have hs : ((InstructionClass.jmp.bits ||| condition.bits) &&& 0x08 != 0) = false := by
    cases condition <;> decide
  refine ⟨Or.inl ⟨hc, rfl⟩, hop, ?_, if_neg (Bool.eq_false_iff.mp hs)⟩
  rw [ha, Option.map_some, Nat.mod_eq_of_lt a.toNat_lt]

theorem lands_jmpImm (condition : Condition)
    (h : m.code[s.pc]? = some (jmpImm condition.bits dst imm off))
    (hdst : dst ≤ framePointer) (ha : s.regs.get? dst = some a)
    (hh : condition.Holds 64 a.toNat (wrap 64 imm.toInt)) : m.Lands s off := by
  have hi := instruction?_of_word h hdst (by decide)
  exact ((jumps_iff_holds hi (compares_jmpImm ha)).mpr hh).lands

theorem step_jmpImm (condition : Condition)
    (h : m.code[s.pc]? = some (jmpImm condition.bits dst imm off))
    (hdst : dst ≤ framePointer) (ha : s.regs.get? dst = some a)
    (hh : ¬ condition.Holds 64 a.toNat (wrap 64 imm.toInt)) : m.step s = .next s.fetched := by
  have hi := instruction?_of_word h hdst (by decide)
  exact step_of_not_holds hi (compares_jmpImm ha) hh

theorem lands_ja (h : m.code[s.pc]? = some (ja off)) : m.Lands s off := by
  have hc : InstructionClass.ofOpcode InstructionClass.jmp.bits = .jmp := by decide
  have hop : InstructionClass.jmp.bits &&& 0xf0 = 0 := by decide
  exact (jumps_of_always (instruction?_of_word h (by decide) (by decide)) hc hop).lands

theorem step_exit (h : m.code[s.pc]? = some exit) (ha : s.regs.get? 0 = some a) :
    m.step s = .exit a s.fetched := by
  have hi := instruction?_of_word h (by decide) (by decide)
  have he : m.effect ⟨opExit, 0, 0, 0, 0⟩ s.pc s = .ok (.exit a) := by
    have hj : m.effect ⟨opExit, 0, 0, 0, 0⟩ s.pc s =
      ((s.regs.read 0 s.pc).map .exit).mapError .fault := rfl
    rw [hj, s.regs.read_of_get? ha]
    rfl
  exact step_of_ok hi he

/-! ### Counted loops -/

/-- A loop whose rounds take `count` instructions each and count down to its invariant at zero. -/
theorem exists_after_mul {inv : Nat → State → Prop} {count : Nat}
    (round : ∀ k s, inv (k + 1) s → ∃ t, m.after count s = some t ∧ inv k t) {k : Nat}
    (h : inv k s) : ∃ t, m.after (count * k) s = some t ∧ inv 0 t := by
  induction k generalizing s with
  | zero => exact ⟨s, rfl, h⟩
  | succ k ih =>
    obtain ⟨u, hu, hk⟩ := round k s h
    obtain ⟨t, ht, h0⟩ := ih hk
    refine ⟨t, ?_, h0⟩
    rw [Nat.mul_succ, Nat.add_comm, after_add, hu]
    exact ht

end Ebpf.Machine
