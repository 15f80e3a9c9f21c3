import Ebpf.Proofs.Machine.Invariant
import Ebpf.Proofs.Machine.Memory

/-! # Frames of instructions

The register that an instruction may change is read off its fields, and so are the bytes of memory,
given its base register. An instruction that succeeds leaves all else as it was, counts one step and
moves on to the slot behind it, unless it is a jump.
-/

namespace Ebpf

def Outcome.success? : Outcome → Option State
  | .next s | .exit _ s => some s
  | .trap .. => none

namespace Instruction

variable (i : Instruction)

instance : Decidable i.IsCall := inferInstanceAs (Decidable (_ ∧ _))

/-- The register that the instruction may change. Packet loads and calls leave their result in
R0. -/
def target? : Option UInt8 :=
  match i.cls with
  | .alu | .alu64 | .ldx => some i.dst
  | .ld => some (if i.isWide then i.dst else 0)
  | .st | .stx => none
  | .jmp | .jmp32 => if i.IsCall then some 0 else none

/-- The instruction is a store, and address `a` lies in the bytes at its operand. -/
def Touches (s : State) (a : Nat) : Prop :=
  (i.cls = .st ∨ i.cls = .stx) ∧ ∃ base, s.regs.get? i.dst = some base ∧
    (i.address base).toNat ≤ a ∧ a < (i.address base).toNat + i.size.bytes

def IsJump : Prop :=
  i.cls = .jmp ∧ i.jumpOperation? = some .always ∨
    (i.cls = .jmp ∨ i.cls = .jmp32) ∧ ∃ condition, i.jumpOperation? = some (.branch condition)

/-- The instruction at `pc` is a jump, and its condition holds if it has one. -/
def Leaps (pc : Nat) (regs : Registers) : Prop :=
  i.cls = .jmp ∧ i.jumpOperation? = some .always ∨
    (i.cls = .jmp ∨ i.cls = .jmp32) ∧ ∃ condition a b, i.jumpOperation? = some (.branch condition) ∧
      regs.get? i.dst = some a ∧ i.operand pc regs = .ok b ∧ i.taken condition a b = true

/-- What the instruction leaves as it was on its way from state `s` to state `u`. -/
structure Frame (s u : State) : Prop where
  target_lt : ∀ reg, i.target? = some reg → reg < framePointer
  regs : ∀ reg, i.target? ≠ some reg → u.regs.get? reg = s.regs.get? reg
  memory : ∀ a, ¬ i.Touches s a → u.memory.byte? a = s.memory.byte? a
  context_size : u.memory.context.size = s.memory.context.size
  pc : u.pc = s.pc + i.width ∨ i.IsJump ∧ (u.pc : Int) = s.pc + 1 + i.off.toInt
  steps : u.steps = s.steps + 1

end Instruction

open Assembly

namespace Machine

variable {m : Machine} {s t u : State} {i : Instruction} {e : Effect} {reg : UInt8} {pc : Nat}

/-! ### Effects -/

theorem state_of_success? {o : Outcome} (h : o.success? = some u) : o.state = u := by
  cases o <;> cases h <;> rfl

theorem commit_target_lt (h : (m.commit s.fetched s.pc e).success? = some u)
    (hreg : .write reg ∈ e.accesses (s.pc + 1)) : reg < framePointer := by
  by_contra hlt
  obtain ⟨v, hv⟩ := commit_of_not_inRange (m := m) hreg hlt
  rw [hv] at h
  cases h

theorem commit_byte? {a : Nat} (ha : ∀ addr len value, e = .store addr len value →
      ¬ (addr.toNat ≤ a ∧ a < addr.toNat + len)) :
    (m.commit t pc e).state.memory.byte? a = t.memory.byte? a := by
  have hc := m.commit_changes t pc e
  cases e with
  | store addr len value =>
    rw [commit]
    split
    · rename_i region start hf
      obtain ⟨hat, hle⟩ := Memory.locate?_eq_some hf
      rw [Outcome.state, Memory.byte?_write hle, ← hat, if_neg (ha addr len value rfl)]
    · rfl
  | keep | jump off | exit value | write reg value | writeWide reg value =>
    rw [hc.memory (by simp [Effect.accesses])]
  | call id helper args =>
    rw [hc.memory (by intro addr len; rw [Effect.accesses]; split <;> simp)]

theorem pc_of_commit (h : (m.commit t pc e).success? = some u) :
    u.pc + 1 = t.pc + e.slots ∨ ∃ off, e = .jump off ∧ (u.pc : Int) = t.pc + off.toInt := by
  have hc := m.commit_changes t pc e
  rw [state_of_success? h] at hc
  rcases hc.pc with hpc | ⟨⟨target, hmem⟩, -⟩
  · exact Or.inl hpc
  · cases e with
    | jump off =>
      rw [commit, jumpBy] at h
      split at h
      · cases h
      · cases h
        exact Or.inr ⟨off, rfl, by dsimp only; omega⟩
    | call id helper args => rw [Effect.accesses] at hmem; split at hmem <;> simp at hmem
    | keep | write reg value | writeWide reg value | store addr len value | exit value =>
      simp [Effect.accesses] at hmem

theorem eq_zero_of_target? (hc : i.cls = .jmp ∨ i.cls = .jmp32) (ht : i.target? = some reg) :
    reg = 0 := by
  have ht : (if i.IsCall then some 0 else none) = some reg := by
    rcases hc with hc | hc <;> simpa only [Instruction.target?, hc] using ht
  split at ht <;> cases ht
  rfl

/-- An instruction writes no register but its target, which it leaves unwritten only if that is
R0. -/
theorem Allows.writes_target (h : m.Allows i s e) :
    (∀ reg, .write reg ∈ e.accesses pc → i.target? = some reg) ∧
      ∀ reg, i.target? = some reg → .write reg ∈ e.accesses pc ∨ reg = 0 := by
  cases e with
  | keep => exact ⟨by simp [Effect.accesses], fun _ ht => Or.inr (eq_zero_of_target? h ht)⟩
  | jump off => exact ⟨by simp [Effect.accesses], fun _ ht => Or.inr (eq_zero_of_target? h.1 ht)⟩
  | exit value =>
    have hc : i.cls = .jmp ∨ i.cls = .jmp32 := Or.inl h.1
    exact ⟨by simp [Effect.accesses], fun _ ht => Or.inr (eq_zero_of_target? hc ht)⟩
  | call id helper args =>
    obtain ⟨hi, -⟩ := h
    have hc := (i.isCall_iff.mp hi).1
    refine ⟨fun reg hreg => ?_, fun _ ht => Or.inr (eq_zero_of_target? (Or.inl hc) ht)⟩
    rw [Effect.accesses] at hreg
    split at hreg
    · cases List.mem_singleton.mp hreg
      simp only [Instruction.target?, hc, hi, if_true]
    · cases hreg
  | store addr len value =>
    obtain ⟨hc, -⟩ := h
    have ht : i.target? = none := by rcases hc with hc | hc <;> simp only [Instruction.target?, hc]
    exact ⟨by simp [Effect.accesses], fun reg hreg => by rw [ht] at hreg; cases hreg⟩
  | write reg value =>
    have ht : i.target? = some reg := by
      rcases h with ⟨hc | hc | hc, rfl⟩ | ⟨hc, hw, rfl⟩ <;> simp [Instruction.target?, *]
    simp [Effect.accesses, ht]
  | writeWide reg value =>
    obtain ⟨hw, rfl⟩ := h
    have ht : i.target? = some i.dst := by
      simp [Instruction.target?, Instruction.cls_of_isWide hw, hw]
    simp [Effect.accesses, ht]

theorem touches_of_effect {addr value : UInt64} {len a : Nat}
    (h : m.effect i pc s = .ok (.store addr len value)) :
    i.Touches s a ↔ addr.toNat ≤ a ∧ a < addr.toNat + len := by
  have hc := (effect_ends.of_ok h).1
  rw [effect_of_store hc] at h
  obtain ⟨base, _, hbase, heq⟩ := storeQuery_ends.of_ok h
  cases heq
  simp [Instruction.Touches, hc, hbase]

theorem leaps_of_branchQuery {condition? : Option Condition} {off : Int16}
    (h : (i.branchQuery pc condition?).eval (m.answer pc s) = .ok (.jump off)) :
    ∃ condition a b, condition? = some condition ∧ s.regs.get? i.dst = some a ∧
      i.operand pc s.regs = .ok b ∧ i.taken condition a b = true := by
  obtain ⟨a, ha, h⟩ := Query.eval_fetch_bind_eq_ok_iff.mp h
  rw [Query.eval_bind, bind_eq_ok_iff] at h
  obtain ⟨b, hb, h⟩ := h
  rw [eval_operandQuery, mapError_eq_ok_iff] at hb
  cases condition? with
  | none => cases h
  | some condition =>
    refine ⟨condition, a, b, rfl, s.regs.get?_of_read ha, hb, ?_⟩
    by_contra hnot
    dsimp only at h
    rw [if_neg hnot] at h
    cases h

theorem leaps_of_effect {off : Int16} (h : m.effect i pc s = .ok (.jump off)) :
    i.Leaps pc s.regs := by
  have hc := (effect_ends.of_ok h).1
  have hj : (m.jumpQuery i pc).eval (m.answer pc s) = .ok (.jump off) := by
    rcases hc with hc | hc <;> simpa only [effect, query, hc] using h
  unfold jumpQuery at hj
  split at hj
  · rename_i other hop
    obtain ⟨condition, a, b, heq, ha, hb, htaken⟩ := leaps_of_branchQuery hj
    cases heq
    exact Or.inr ⟨hc, other, a, b, hop, ha, hb, htaken⟩
  · -- An operation that does not exist is refused behind its operands.
    obtain ⟨condition, a, b, heq, -⟩ := leaps_of_branchQuery hj
    cases heq
  · rename_i operation hb hop
    split at hj
    · rename_i hcls
      cases operation with
      | always => exact Or.inl ⟨hcls, hop⟩
      | call =>
        rw [eval_callQuery] at hj
        cases hcalled : m.called i pc <;> rw [hcalled] at hj <;> cases hj
      | exit =>
        obtain ⟨value, -, hj⟩ := Query.eval_fetch_bind_eq_ok_iff.mp hj
        cases hj
      | branch condition => exact (hb condition rfl).elim
    · cases hj

theorem isJump_of_effect {off : Int16} (h : m.effect i pc s = .ok (.jump off)) : i.IsJump := by
  rcases leaps_of_effect h with hjump | ⟨hc, condition, -, -, hop, -⟩
  · exact Or.inl hjump
  · exact Or.inr ⟨hc, condition, hop⟩

/-- An instruction that succeeds changes its target and the bytes of its store only. -/
theorem frame_of_success (h : (m.step s).success? = some u) :
    ∃ i, m.instruction? s = some i ∧ i.Frame s u := by
  cases hi : m.instruction? s with
  | none => rw [step_of_none hi] at h; cases h
  | some i =>
    cases he : m.effect i s.pc s with
    | error cause => rw [step_of_error hi he] at h; cases h
    | ok e =>
      have hallows := effect_ends.of_ok he
      obtain ⟨hwrites, htarget⟩ := hallows.writes_target
      rw [step_of_ok hi he] at h
      have hc := m.commit_changes s.fetched s.pc e
      rw [state_of_success? h] at hc
      refine ⟨i, rfl, ?_⟩
      exact {
        target_lt := fun reg ht => by
          rcases htarget reg ht with hreg | rfl
          · exact commit_target_lt h hreg
          · decide
        regs := fun reg ht => hc.regs reg (Or.inl fun hreg => ht (hwrites reg hreg))
        memory := fun a ha => by
          rw [← state_of_success? h]
          apply commit_byte?
          rintro addr len value rfl
          rwa [← touches_of_effect he]
        context_size := hc.context_size
        pc := by
          rcases pc_of_commit h with hpc | ⟨off, rfl, hpc⟩
          · rw [hallows.slots_eq] at hpc
            exact Or.inl (by simp only [State.fetched] at hpc; omega)
          · obtain ⟨-, rfl⟩ := hallows
            exact Or.inr ⟨isJump_of_effect he, hpc⟩
        steps := hc.steps_eq }

/-- An atomic addition below the frame pointer, and then an exit. -/
def adding : Machine := ofCode #[xadd AccessSize.double.bits 10 (-8) 1, exit] .empty .empty

def addingState : State :=
  { State.initial .blank with regs := (Registers.initial stackTop).set 1 5 }

theorem frame_of_success_adding : ∃ u, (adding.step addingState).success? = some u ∧
    (∀ reg, u.regs.get? reg = addingState.regs.get? reg) ∧
    u.memory.byte? 0x200001f8 = some 5 ∧
    ∀ a, ¬ (0x200001f8 ≤ a ∧ a < 0x20000200) → u.memory.byte? a = Memory.blank.byte? a := by
  have h : (adding.step addingState).success? = some _ := rfl
  obtain ⟨i, hi, hframe⟩ := frame_of_success h
  cases hi
  refine ⟨_, h, fun reg => hframe.regs reg nofun, by decide +kernel, fun a ha => ?_⟩
  apply hframe.memory a
  rintro ⟨-, base, hbase, htouch⟩
  cases hbase
  exact ha htouch

end Machine

end Ebpf
