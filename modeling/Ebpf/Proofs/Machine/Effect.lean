import Ebpf.Proofs.Machine.Call

/-! # What an instruction can ask for

The class of an instruction decides which kind of effect it has, and the effect takes as many
slots as the linear scan gives the instruction. The faults that an instruction other than a call
meets while its effect is settled are execution faults, and each of them says what it is about: the
opcode, a register, a divisor, an access to memory, or the second slot of a wide load.
-/

namespace Ebpf

/-- The faults of the machine itself, apart from a refused call. -/
def Fault.IsExecution : Fault → Prop
  | .invalidOpcode .. | .invalidRegister .. | .divisionByZero _ | .outOfBounds ..
  | .stepLimitExceeded _ | .pcOutOfRange _ => True
  | .unsupportedCall _ | .helperFailed .. | .invalidTransition _ | .contextTooLarge _ => False

namespace Instruction

/-- The faults that instruction `i` at `pc` can meet while it settles on its effect, those of calls
and of wide loads apart. -/
inductive Meets (i : Instruction) (pc : Nat) (regs : Registers) : Fault → Prop where
  | opcode : Meets i pc regs (.invalidOpcode i.opcode pc)
  | register {reg : UInt8} (hreg : reg = i.dst ∨ reg = i.src) (h : regs.get? reg = none) :
      Meets i pc regs (.invalidRegister reg pc)
  | divisor {op : ArithmeticOp} {a b : UInt64} (hc : i.cls = .alu ∨ i.cls = .alu64)
      (hop : i.aluOperation? = some (.arithmetic op)) (hb : i.operand pc regs = .ok b)
      (hnone : i.evaluate op a b = none) : Meets i pc regs (.divisionByZero pc)
  | bounds {addr : UInt64} {len : Nat} : Meets i pc regs (.outOfBounds addr len)

inductive Unpaired (pc : Nat) (next? : Option UInt64) : Fault → Prop where
  | missing (h : next? = none) : Unpaired pc next? (.pcOutOfRange (pc + 1))
  | opcode {word : UInt64} (h : next? = some word) (hop : (decode word).opcode ≠ 0) :
      Unpaired pc next? (.invalidOpcode (decode word).opcode (pc + 1))

theorem Meets.isExecution {i : Instruction} {pc : Nat} {regs : Registers} {f : Fault}
    (h : i.Meets pc regs f) : f.IsExecution := by
  cases h <;> trivial

theorem Unpaired.isExecution {pc : Nat} {next? : Option UInt64} {f : Fault}
    (h : Unpaired pc next? f) : f.IsExecution := by
  cases h <;> trivial

end Instruction

/-- The number of slots that the machine moves past, jumps apart. -/
def Effect.slots : Effect → Nat
  | .writeWide .. => 2
  | _ => 1

namespace Machine

open Query

/-- The effects that instruction `i` can have in state `s`. -/
def Allows (m : Machine) (i : Instruction) (s : State) : Effect → Prop
  | .keep => i.cls = .jmp ∨ i.cls = .jmp32
  | .write reg _ => (i.cls = .alu ∨ i.cls = .alu64 ∨ i.cls = .ldx) ∧ reg = i.dst
      ∨ i.cls = .ld ∧ i.isWide = false ∧ reg = 0
  | .writeWide reg _ => i.isWide = true ∧ reg = i.dst
  | .store _ len _ => (i.cls = .st ∨ i.cls = .stx) ∧ len = i.size.bytes
  | .jump off => (i.cls = .jmp ∨ i.cls = .jmp32) ∧ off = i.off
  | .call id helper args => i.IsCall ∧ i.src = 0 ∧ id = i.helperId ∧ m.callee id = .ok helper ∧
      args = s.regs.arguments helper.signature.arity
  | .exit value => i.cls = .jmp ∧ s.regs.get? 0 = some value

/-- The traps of instruction `i` at `pc` that leave it without an effect. -/
inductive Rejects (m : Machine) (i : Instruction) (pc : Nat) (regs : Registers) : Trap → Prop where
  | call {cause : Trap} (hc : i.IsCall) (he : m.called i pc = .error cause) :
      Rejects m i pc regs cause
  | met {f : Fault} (h : i.Meets pc regs f) : Rejects m i pc regs (.fault f)
  | wide {f : Fault} (hw : i.isWide = true)
      (h : Instruction.Unpaired pc m.code[pc + 1]? f) : Rejects m i pc regs (.fault f)

variable {m : Machine} {i : Instruction} {pc : Nat} {s : State}

theorem Rejects.isCall_or_isExecution {regs : Registers} {cause : Trap}
    (h : m.Rejects i pc regs cause) : i.IsCall ∨ ∃ f, cause = .fault f ∧ f.IsExecution := by
  cases h with
  | call hc => exact Or.inl hc
  | met h => exact Or.inr ⟨_, rfl, h.isExecution⟩
  | wide _ h => exact Or.inr ⟨_, rfl, h.isExecution⟩

/-! ### Places -/

theorem register_ends {reg : UInt8} (hreg : reg = i.dst ∨ reg = i.src) :
    Ends (m.Rejects i pc s.regs) (fun value => s.regs.get? reg = some value)
      ((fetch (.register reg)).eval (m.answer pc s)) := by
  rw [eval_fetch, answer, Registers.read]
  cases h : s.regs.get? reg with
  | some value => exact rfl
  | none => exact .met (.register hreg h)

theorem operand_ends : Ends (m.Rejects i pc s.regs) (fun b => i.operand pc s.regs = .ok b)
    (i.operandQuery.eval (m.answer pc s)) := by
  rw [eval_operandQuery]
  unfold Instruction.operand
  split
  · rw [Registers.read]
    cases h : s.regs.get? i.src with
    | some value => exact rfl
    | none => exact .met (.register (Or.inr rfl) h)
  · exact rfl

theorem bytes_ends (addr : UInt64) (len : Nat) : Ends (m.Rejects i pc s.regs) (fun _ => True)
    ((fetch (.bytes addr len)).eval (m.answer pc s)) := by
  rw [eval_fetch, answer, Memory.load]
  split
  · trivial
  · trivial
  · exact .met .bounds

theorem packet_ends (offset : UInt64) (len : Nat) : Ends (m.Rejects i pc s.regs) (fun _ => True)
    ((fetch (.packet offset len)).eval (m.answer pc s)) := by
  rw [eval_fetch, answer, Memory.loadPacket]
  split
  · trivial
  · exact .met .bounds

/-! ### Classes -/

theorem aluQuery_ends (hc : i.cls = .alu ∨ i.cls = .alu64) :
    Ends (m.Rejects i pc s.regs) (fun e => ∃ value, e = .write i.dst value)
      ((i.aluQuery pc).eval (m.answer pc s)) := by
  apply ends_bind (register_ends (Or.inl rfl))
  intro a _
  split
  · exact .met .opcode
  · split
    · split
      · exact ⟨_, rfl⟩
      · exact .met .opcode
    · exact .met .opcode
  · rename_i op hop
    split
    · exact .met .opcode
    · apply ends_bind operand_ends
      intro b hb
      split
      · exact ⟨_, rfl⟩
      · rename_i hnone
        exact .met (.divisor hc hop hb hnone)

theorem branchQuery_ends (condition? : Option Condition) :
    Ends (m.Rejects i pc s.regs) (fun e => e = .keep ∨ e = .jump i.off)
      ((i.branchQuery pc condition?).eval (m.answer pc s)) := by
  apply ends_bind (register_ends (Or.inl rfl))
  intro a _
  apply ends_bind operand_ends
  intro b _
  split
  · exact .met .opcode
  · rename_i condition
    cases i.taken condition a b with
    | true => exact Or.inr rfl
    | false => exact Or.inl rfl

theorem wideQuery_ends (hw : i.isWide = true) :
    Ends (m.Rejects i pc s.regs) (fun e => ∃ value, e = .writeWide i.dst value)
      ((i.wideQuery pc).eval (m.answer pc s)) := by
  unfold Instruction.wideQuery
  rw [eval_bind, eval_fetch, answer]
  cases hnext : m.code[pc + 1]? with
  | none => exact .wide hw (.missing hnext)
  | some word =>
    change Ends _ _ (Query.eval _ (if _ then _ else _))
    split
    · exact ⟨_, rfl⟩
    · rename_i hop
      exact .wide hw (.opcode hnext hop)

theorem packetQuery_ends : Ends (m.Rejects i pc s.regs) (fun e => ∃ value, e = .write 0 value)
    ((i.packetQuery pc).eval (m.answer pc s)) := by
  have offset : Ends (m.Rejects i pc s.regs) (fun _ => True)
      ((i.offsetQuery pc).eval (m.answer pc s)) := by
    unfold Instruction.offsetQuery
    split
    · trivial
    · exact ends_bind (register_ends (Or.inr rfl)) fun base _ => trivial
    · exact .met .opcode
  exact ends_bind offset fun offset _ =>
    ends_bind (packet_ends offset _) fun value _ => ⟨value, rfl⟩

theorem loadQuery_ends : Ends (m.Rejects i pc s.regs) (fun e => ∃ value, e = .write i.dst value)
    ((i.loadQuery pc).eval (m.answer pc s)) := by
  unfold Instruction.loadQuery
  split
  · exact ends_bind (register_ends (Or.inr rfl)) fun base _ =>
      ends_bind (bytes_ends _ _) fun value _ => ⟨value, rfl⟩
  · exact .met .opcode

theorem storeQuery_ends : Ends (m.Rejects i pc s.regs) (fun e => ∃ base value,
    s.regs.get? i.dst = some base ∧ e = .store (i.address base) i.size.bytes value)
      ((i.storeQuery pc).eval (m.answer pc s)) := by
  apply ends_bind (register_ends (Or.inl rfl))
  intro base hbase
  dsimp only
  split
  · exact ⟨base, _, hbase, rfl⟩
  · exact ends_bind (register_ends (Or.inr rfl)) fun value _ => ⟨base, _, hbase, rfl⟩
  · split
    · exact ends_bind (register_ends (Or.inr rfl)) fun value _ =>
        ends_bind (bytes_ends _ _) fun old _ => ⟨base, _, hbase, rfl⟩
    · exact .met .opcode
  · exact .met .opcode

theorem jumpQuery_ends (hc : i.cls = .jmp ∨ i.cls = .jmp32) :
    Ends (m.Rejects i pc s.regs) (m.Allows i s) ((m.jumpQuery i pc).eval (m.answer pc s)) := by
  have branch (condition? : Option Condition) : Ends (m.Rejects i pc s.regs) (m.Allows i s)
      ((i.branchQuery pc condition?).eval (m.answer pc s)) := by
    apply (branchQuery_ends condition?).mono
    rintro e (rfl | rfl)
    · exact hc
    · exact ⟨hc, rfl⟩
  unfold jumpQuery
  split
  · exact branch _
  · exact branch _
  · rename_i operation hb hop
    split
    · rename_i hj
      cases operation with
      | always => exact ⟨hc, rfl⟩
      | call =>
        have hi : i.IsCall := i.isCall_iff.mpr ⟨hj, hop⟩
        dsimp only
        rw [eval_callQuery]
        cases hcalled : m.called i pc with
        | ok helper =>
          obtain ⟨hsrc, hcallee⟩ := called_eq_ok_iff.mp hcalled
          exact ⟨hi, hsrc, rfl, hcallee, rfl⟩
        | error cause => exact .call hi hcalled
      | exit =>
        -- R0 exists, so it can be read.
        obtain ⟨value, hvalue⟩ := s.regs.exists_get? (show (0 : UInt8) < framePointer by decide)
        dsimp only
        rw [eval_fetch_bind_of_ok (answer_of_get? hvalue)]
        exact ⟨hj, hvalue⟩
      | branch condition => exact (hb condition rfl).elim
    · exact .met .opcode

theorem effect_ends : Ends (m.Rejects i pc s.regs) (m.Allows i s) (m.effect i pc s) := by
  unfold effect query
  split
  · rename_i hc
    apply (aluQuery_ends (Or.inl hc)).mono
    rintro e ⟨value, rfl⟩
    exact Or.inl ⟨Or.inl hc, rfl⟩
  · rename_i hc
    apply (aluQuery_ends (Or.inr hc)).mono
    rintro e ⟨value, rfl⟩
    exact Or.inl ⟨Or.inr (Or.inl hc), rfl⟩
  · rename_i hc
    exact jumpQuery_ends (Or.inl hc)
  · rename_i hc
    exact jumpQuery_ends (Or.inr hc)
  · rename_i hc
    split
    · rename_i hw
      apply (wideQuery_ends hw).mono
      rintro e ⟨value, rfl⟩
      exact ⟨hw, rfl⟩
    · rename_i hw
      apply packetQuery_ends.mono
      rintro e ⟨value, rfl⟩
      exact Or.inr ⟨hc, Bool.eq_false_iff.mpr hw, rfl⟩
  · rename_i hc
    apply loadQuery_ends.mono
    rintro e ⟨value, rfl⟩
    exact Or.inl ⟨Or.inr (Or.inr hc), rfl⟩
  · rename_i hc
    apply storeQuery_ends.mono
    rintro e ⟨base, value, -, rfl⟩
    exact ⟨Or.inl hc, rfl⟩
  · rename_i hc
    apply storeQuery_ends.mono
    rintro e ⟨base, value, -, rfl⟩
    exact ⟨Or.inr hc, rfl⟩

theorem effect_of_store (hc : i.cls = .st ∨ i.cls = .stx) (pc : Nat) :
    m.effect i pc s = (i.storeQuery pc).eval (m.answer pc s) := by
  rcases hc with hc | hc <;> simp only [effect, query, hc]

/-- Of what differs between machines that run the same code, only calls can see anything. -/
theorem effect_eq_of_not_isCall {m' : Machine} (hcode : m'.code = m.code) (h : ¬ i.IsCall)
    (pc : Nat) : m'.effect i pc s = m.effect i pc s := by
  have hanswer : m'.answer pc s = m.answer pc s := by
    funext place
    cases place with
    | slot pc => rw [answer, answer, hcode]
    | _ => rfl
  have hj : m'.jumpQuery i pc = m.jumpQuery i pc := by
    unfold jumpQuery
    split
    · rfl
    · rfl
    · rename_i operation _ hop
      split
      · rename_i hc
        cases operation with
        | call => exact absurd (i.isCall_iff.mpr ⟨hc, hop⟩) h
        | _ => rfl
      · rfl
  rw [effect, effect, hanswer]
  unfold query
  rw [hj]

theorem Allows.slots_eq {e : Effect} (h : m.Allows i s e) : e.slots = i.width := by
  cases e with
  | keep => exact (Instruction.width_eq_one (by rcases h with h | h <;> simp [h])).symm
  | write reg value =>
    rcases h with ⟨h, -⟩ | ⟨-, h, -⟩
    · exact (Instruction.width_eq_one (by rcases h with h | h | h <;> simp [h])).symm
    · exact (if_neg (by simp [h])).symm
  | writeWide reg value => exact (if_pos h.1).symm
  | store addr len value =>
    exact (Instruction.width_eq_one (by rcases h.1 with h | h <;> simp [h])).symm
  | jump off => exact (Instruction.width_eq_one (by rcases h.1 with h | h <;> simp [h])).symm
  | call id helper args =>
    exact (Instruction.width_eq_one (by simp [(i.isCall_iff.mp h.1).1])).symm
  | exit value => exact (Instruction.width_eq_one (by simp [h.1])).symm

end Machine

end Ebpf
