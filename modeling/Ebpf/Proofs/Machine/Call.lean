import Ebpf.Proofs.Machine.Query

/-! # Call instructions

The machine reads a call off the class and the operation bits of an opcode. Two opcodes are calls
in this sense: `opCall`, and the same opcode with the source bit set.
-/

namespace Ebpf

def opCallSource : UInt8 := 0x8d

/-- The class bits say jump and the operation bits say call; the source bit is not looked at. -/
def Instruction.IsCall (i : Instruction) : Prop :=
  i.opcode &&& 0x07 = 0x05 ∧ i.opcode &&& 0xf0 = 0x80

namespace Instruction

variable (i : Instruction)

theorem cls_eq_jmp_iff : i.cls = .jmp ↔ i.opcode &&& 0x07 = 0x05 := by
  unfold cls InstructionClass.ofOpcode
  split <;> simp_all

theorem jumpOperation?_eq_call_iff :
    i.jumpOperation? = some .call ↔ i.opcode &&& 0xf0 = 0x80 := by
  unfold jumpOperation? operation JumpOperation.ofBits?
  split <;> simp_all

theorem isCall_iff : i.IsCall ↔ i.cls = .jmp ∧ i.jumpOperation? = some .call := by
  rw [IsCall, cls_eq_jmp_iff, jumpOperation?_eq_call_iff]

theorem isCall_iff_opcode : i.IsCall ↔ i.opcode = opCall ∨ i.opcode = opCallSource := by
  have all (bits : BitVec 8) : ((⟨bits⟩ : UInt8) &&& 0x07 = 0x05 ∧ (⟨bits⟩ : UInt8) &&& 0xf0 = 0x80)
      ↔ (⟨bits⟩ : UInt8) = opCall ∨ (⟨bits⟩ : UInt8) = opCallSource := by
    revert bits; decide +kernel
  exact all i.opcode.toBitVec

theorem cls_of_isWide {i : Instruction} (h : i.isWide = true) : i.cls = .ld := by
  rw [cls, eq_of_beq h]
  rfl

theorem width_eq_one {i : Instruction} (h : i.cls ≠ .ld) : i.width = 1 :=
  if_neg fun hw => h (cls_of_isWide hw)

end Instruction

namespace Machine

variable {m : Machine} {i : Instruction} {pc : Nat} {s : State} {e : Effect} {cause : Trap}

theorem callee_eq_ok_iff {id : UInt32} {helper : Helper} :
    m.callee id = .ok helper ↔ m.table.get? id = some helper ∧
      ∀ declared, m.program.declaredSignature id = some declared →
        declared = helper.signature := by
  unfold callee
  cases m.table.get? id with
  | none => simp
  | some other =>
    cases m.program.declaredSignature id with
    | none => simp
    | some declared =>
      simp only [Option.some.injEq, forall_eq']
      split
      · rename_i h
        constructor
        · rintro ⟨⟩
          exact ⟨rfl, h⟩
        · rintro ⟨rfl, -⟩
          rfl
      · rename_i h
        constructor
        · rintro ⟨⟩
        · rintro ⟨rfl, h'⟩
          exact absurd h' h

theorem called_of_src_eq_zero (h : i.src = 0) : m.called i pc = m.callee i.helperId :=
  if_neg (not_not_intro h)

theorem called_of_src_ne_zero (h : i.src ≠ 0) :
    m.called i pc = .error (.fault (.unsupportedCall pc)) := if_pos h

theorem called_eq_ok_iff {helper : Helper} :
    m.called i pc = .ok helper ↔ i.src = 0 ∧ m.callee i.helperId = .ok helper := by
  by_cases h : i.src = 0
  · simp [called_of_src_eq_zero h, h]
  · simp [called_of_src_ne_zero h, h]

/-- A helper gets what stands in its argument registers, which all exist. -/
theorem eval_callQuery : (m.callQuery i pc).eval (m.answer pc s) =
    (m.called i pc).map fun helper =>
      .call i.helperId helper (s.regs.arguments helper.signature.arity) := by
  have hall : (Query.fetchAll ((List.range maxArguments).map fun k =>
      .register (.ofNat (k + 1)))).eval (m.answer pc s) = .ok (s.regs.arguments maxArguments) :=
    Query.eval_fetchAll (by
      rw [List.map_map]
      exact s.regs.map_read_arguments (Nat.le_refl _))
  rw [callQuery, Query.eval_bind, Query.eval_ofExcept]
  cases m.called i pc with
  | error cause => rfl
  | ok helper =>
    change Query.eval _ (_ >>= _) =
      .ok (Effect.call i.helperId helper (s.regs.arguments helper.signature.arity))
    rw [Query.eval_bind, hall, ← s.regs.take_arguments helper.signature.arity_le]
    rfl

theorem effect_of_isCall (h : i.IsCall) : m.effect i pc s = (m.called i pc).map fun helper =>
    .call i.helperId helper (s.regs.arguments helper.signature.arity) := by
  obtain ⟨hc, hop⟩ := i.isCall_iff.mp h
  simp only [effect, query, hc, jumpQuery, hop, if_true, eval_callQuery]

theorem effect_of_isCall_eq_ok_iff (h : i.IsCall) : m.effect i pc s = .ok e ↔
    i.src = 0 ∧ ∃ helper, m.callee i.helperId = .ok helper ∧
      e = .call i.helperId helper (s.regs.arguments helper.signature.arity) := by
  rw [effect_of_isCall h]
  constructor
  · intro he
    cases hcalled : m.called i pc with
    | error cause => rw [hcalled] at he; cases he
    | ok helper =>
      rw [hcalled] at he
      cases he
      obtain ⟨hsrc, hcallee⟩ := called_eq_ok_iff.mp hcalled
      exact ⟨hsrc, helper, hcallee, rfl⟩
  · rintro ⟨hsrc, helper, hcallee, rfl⟩
    rw [called_eq_ok_iff.mpr ⟨hsrc, hcallee⟩]
    rfl

theorem effect_of_isCall_eq_error_iff (h : i.IsCall) :
    m.effect i pc s = .error cause ↔ m.called i pc = .error cause := by
  rw [effect_of_isCall h]
  cases m.called i pc with
  | error other => constructor <;> rintro ⟨⟩ <;> rfl
  | ok helper => constructor <;> rintro ⟨⟩

end Machine

end Ebpf
