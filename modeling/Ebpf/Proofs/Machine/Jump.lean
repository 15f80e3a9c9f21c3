import Ebpf.Proofs.Machine.Arithmetic

/-! # Jumps

A conditional jump is taken exactly if its relation holds between its operands, read as integers of
the width of its class. A jump that is taken leads to the slot that its offset names, counted from
the slot behind it, provided that this slot lies within the code or at its end.
-/

namespace Ebpf

open Assembly

theorem and_ne_zero_iff (a b : Nat) :
    a &&& b ≠ 0 ↔ ∃ k, a.testBit k = true ∧ b.testBit k = true := by
  constructor
  · intro h
    obtain ⟨k, hk⟩ := Nat.exists_testBit_of_ne_zero h
    rw [Nat.testBit_and, Bool.and_eq_true] at hk
    exact ⟨k, hk⟩
  · rintro ⟨k, ha, hb⟩ h
    have hk := Nat.testBit_and a b k
    rw [h, ha, hb, Nat.zero_testBit] at hk
    cases hk

namespace Condition

variable {condition other : Condition}

/-- The relation that a conditional jump tests, between numbers of `w` bits. -/
def Holds (condition : Condition) (w a b : Nat) : Prop :=
  match condition with
  | eq => a = b
  | gt => b < a
  | ge => b ≤ a
  | set => ∃ k, a.testBit k = true ∧ b.testBit k = true
  | ne => a ≠ b
  | sgt => signedValue w b < signedValue w a
  | sge => signedValue w b ≤ signedValue w a
  | lt => a < b
  | le => a ≤ b
  | slt => signedValue w a < signedValue w b
  | sle => signedValue w a ≤ signedValue w b

/-- The relation that holds where this one does not, if a jump can test it. -/
def opposite? : Condition → Option Condition
  | eq => some ne
  | ne => some eq
  | gt => some le
  | le => some gt
  | ge => some lt
  | lt => some ge
  | sgt => some sle
  | sle => some sgt
  | sge => some slt
  | slt => some sge
  | set => none

theorem holds_opposite_iff (h : condition.opposite? = some other) (w a b : Nat) :
    other.Holds w a b ↔ ¬ condition.Holds w a b := by
  cases condition <;> cases h <;> simp [Holds]

theorem holds64_iff (a b : UInt64) :
    condition.holds64 a b = true ↔ condition.Holds 64 a.toNat b.toNat := by
  have signed (x : UInt64) : x.toInt64.toInt = signedValue 64 x.toNat :=
    toInt_eq_signedValue x.toBitVec
  cases condition <;>
    simp [holds64, Holds, ← signed, Int64.lt_iff_toInt_lt, Int64.le_iff_toInt_le,
      UInt64.lt_iff_toNat_lt, UInt64.le_iff_toNat_le, ← UInt64.toNat_inj, ← and_ne_zero_iff]

theorem holds32_iff (a b : UInt32) :
    condition.holds32 a b = true ↔ condition.Holds 32 a.toNat b.toNat := by
  have signed (x : UInt32) : x.toInt32.toInt = signedValue 32 x.toNat :=
    toInt_eq_signedValue x.toBitVec
  cases condition <;>
    simp [holds32, Holds, ← signed, Int32.lt_iff_toInt_lt, Int32.le_iff_toInt_le,
      UInt32.lt_iff_toNat_lt, UInt32.le_iff_toNat_le, ← UInt32.toNat_inj, ← and_ne_zero_iff]

end Condition

theorem JumpOperation.ofBits?_bits (condition : Condition) :
    ofBits? condition.bits = some (.branch condition) := by
  cases condition <;> rfl

namespace Instruction

variable {i : Instruction} {regs : Registers} {condition : Condition} {w a b pc : Nat}

/-- The instruction is a conditional jump, and the operands that its relation is tested on are the
numbers `a` and `b` of `w` bits. -/
structure Compares (i : Instruction) (regs : Registers) (condition : Condition) (w a b : Nat) :
    Prop where
  cls : i.cls = .jmp ∧ w = 64 ∨ i.cls = .jmp32 ∧ w = 32
  operation : i.operation = condition.bits
  dst : (regs.get? i.dst).map (·.toNat % 2 ^ w) = some a
  src : i.sourceNumber? w regs = some b

theorem Compares.jumpOperation? (h : i.Compares regs condition w a b) :
    i.jumpOperation? = some (.branch condition) := by
  rw [Instruction.jumpOperation?, h.operation, JumpOperation.ofBits?_bits]

theorem taken_iff (hc : i.cls = .jmp ∧ w = 64 ∨ i.cls = .jmp32 ∧ w = 32) (x y : UInt64) :
    i.taken condition x y = true ↔ condition.Holds w (x.toNat % 2 ^ w) (y.toNat % 2 ^ w) := by
  unfold taken
  rcases hc with ⟨hc, rfl⟩ | ⟨hc, rfl⟩
  · rw [if_pos hc, Condition.holds64_iff, Nat.mod_eq_of_lt x.toNat_lt, Nat.mod_eq_of_lt y.toNat_lt]
  · rw [hc, if_neg nofun, Condition.holds32_iff, UInt64.toNat_toUInt32, UInt64.toNat_toUInt32]

end Instruction

namespace Machine

variable {m : Machine} {s : State} {i : Instruction} {condition : Condition} {w a b : Nat}
  {x y : UInt64} {off : Int16}

/-- The outcome of a jump by `off` in state `s`. -/
structure Lands (m : Machine) (s : State) (off : Int16) : Prop where
  next : ∀ target : Nat, (target : Int) = s.pc + 1 + off.toInt → target ≤ m.code.size →
    m.step s = .next { s with pc := target, steps := s.steps + 1 }
  trap : ¬ (0 ≤ s.pc + 1 + off.toInt ∧ s.pc + 1 + off.toInt ≤ m.code.size) →
    ∃ n, m.step s = .trap (.fault (.pcOutOfRange n)) s.fetched

theorem jumps_iff (hi : m.instruction? s = some i) :
    m.Jumps s off ↔ m.effect i s.pc s = .ok (.jump off) := by
  rw [Jumps, hi]
  simp

theorem Jumps.lands (h : m.Jumps s off) : m.Lands s off := by
  obtain ⟨i, hi, he⟩ := h
  have hstep : m.step s = m.jumpBy s.fetched off := step_of_ok hi he
  rw [jumpBy] at hstep
  constructor
  · intro target ht hle
    have htarget : (((s.pc + 1 : Nat) : Int) + off.toInt).toNat = target := by omega
    rw [hstep, if_neg (by simp only [State.fetched]; omega)]
    simp only [State.fetched, htarget]
  · intro hout
    rw [hstep, if_pos (by simp only [State.fetched]; omega)]
    exact ⟨_, rfl⟩

theorem jumps_of_always (hi : m.instruction? s = some i) (hc : i.cls = .jmp)
    (hop : i.operation = 0) : m.Jumps s i.off := by
  have hj : i.jumpOperation? = some .always := by rw [Instruction.jumpOperation?, hop]; rfl
  rw [jumps_iff hi]
  simp only [effect, query, hc, jumpQuery, hj, if_true]
  rfl

theorem effect_of_branch (hc : i.cls = .jmp ∨ i.cls = .jmp32)
    (hj : i.jumpOperation? = some (.branch condition)) (hx : s.regs.get? i.dst = some x) {pc : Nat}
    (hy : i.operand pc s.regs = .ok y) :
    m.effect i pc s = .ok (if i.taken condition x y then .jump i.off else .keep) := by
  have hquery : m.query i pc = i.branchQuery pc (some condition) := by
    rcases hc with hc | hc <;> simp only [query, hc, jumpQuery, hj]
  rw [effect, hquery, Instruction.branchQuery, Query.eval_fetch_bind_of_ok (answer_of_get? hx),
    eval_operandQuery_bind hy]
  rfl

theorem effect_of_compares (h : i.Compares s.regs condition w a b) (pc : Nat) :
    ∃ taken : Bool, (taken = true ↔ condition.Holds w a b) ∧
      m.effect i pc s = .ok (if taken then .jump i.off else .keep) := by
  obtain ⟨x, hx, rfl⟩ := Option.map_eq_some_iff.mp h.dst
  have hw : w ≤ 64 := by rcases h.cls with ⟨-, rfl⟩ | ⟨-, rfl⟩ <;> decide
  obtain ⟨y, hy, rfl⟩ := Instruction.exists_operand pc hw h.src
  exact ⟨i.taken condition x y, Instruction.taken_iff h.cls x y,
    effect_of_branch (h.cls.imp And.left And.left) h.jumpOperation? hx hy⟩

theorem jumps_iff_holds (hi : m.instruction? s = some i) (h : i.Compares s.regs condition w a b) :
    m.Jumps s i.off ↔ condition.Holds w a b := by
  obtain ⟨taken, ht, he⟩ := effect_of_compares (m := m) h s.pc
  rw [jumps_iff hi, he, ← ht]
  cases taken <;> simp

theorem step_of_not_holds (hi : m.instruction? s = some i) (h : i.Compares s.regs condition w a b)
    (hn : ¬ condition.Holds w a b) :
    m.step s = .next { s with pc := s.pc + 1, steps := s.steps + 1 } := by
  obtain ⟨taken, ht, he⟩ := effect_of_compares (m := m) h s.pc
  obtain rfl : taken = false := Bool.eq_false_iff.mpr (mt ht.mp hn)
  exact step_of_ok hi he

/-- A conditional jump is taken exactly if its relation holds between its operands, and then it
leads to the slot that its offset names, as a jump without a condition always does. If it is not
taken, its offset is not looked at. Of two jumps that test opposite relations on the same operands,
exactly one is taken. -/
theorem step_jump (hi : m.instruction? s = some i) :
    (i.cls = .jmp → i.operation = 0 → m.Jumps s i.off ∧ m.Lands s i.off) ∧
    ∀ condition w a b, i.Compares s.regs condition w a b →
      (m.Jumps s i.off ↔ condition.Holds w a b) ∧
      (condition.Holds w a b → m.Lands s i.off) ∧
      (¬ condition.Holds w a b →
        m.step s = .next { s with pc := s.pc + 1, steps := s.steps + 1 }) ∧
      ∀ (other : Condition) (m' : Machine) (s' : State) (i' : Instruction),
        condition.opposite? = some other → m'.instruction? s' = some i' →
        i'.Compares s'.regs other w a b → (m'.Jumps s' i'.off ↔ ¬ m.Jumps s i.off) := by
  constructor
  · intro hc hop
    have hj := jumps_of_always hi hc hop
    exact ⟨hj, hj.lands⟩
  · intro condition w a b h
    have hj := jumps_iff_holds hi h
    refine ⟨hj, fun hh => (hj.mpr hh).lands, step_of_not_holds hi h, ?_⟩
    intro other m' s' i' ho hi' h'
    rw [jumps_iff_holds hi' h', Condition.holds_opposite_iff ho, hj]

/-- Jumps on R1: a signed one, one on the low half whose offset points outside of the code, one to
the end of the code, and one to a slot in front of it. -/
def jumping : Machine := ofCode
  #[jmpImm Condition.sgt.bits 1 (-2) 1, jmp32Imm Condition.lt.bits 1 0 (-9), ja 1, ja (-5)]
  .empty .empty

def jumpingState (pc : Nat) : State :=
  { State.initial .blank with regs := (Registers.initial stackTop).set 1 (-1), pc }

theorem step_jump_jumping :
    jumping.step (jumpingState 0) = .next { jumpingState 2 with steps := 1 } ∧
    jumping.step (jumpingState 1) = .next { jumpingState 2 with steps := 1 } ∧
    jumping.step (jumpingState 2) = .next { jumpingState 4 with steps := 1 } ∧
    ∃ n, jumping.step (jumpingState 3) =
      .trap (.fault (.pcOutOfRange n)) (jumpingState 3).fetched := by
  refine ⟨?_, ?_, ?_, ?_⟩
  · obtain ⟨-, h⟩ := step_jump (m := jumping) (s := jumpingState 0) rfl
    obtain ⟨-, hlands, -⟩ := h .sgt 64 (2 ^ 64 - 1) (2 ^ 64 - 2) ⟨Or.inl ⟨rfl, rfl⟩, rfl, rfl, rfl⟩
    exact (hlands (by unfold Condition.Holds; decide)).next 2 rfl (by decide)
  · obtain ⟨-, h⟩ := step_jump (m := jumping) (s := jumpingState 1) rfl
    obtain ⟨-, -, hnext, -⟩ := h .lt 32 (2 ^ 32 - 1) 0 ⟨Or.inr ⟨rfl, rfl⟩, rfl, rfl, rfl⟩
    exact hnext (by unfold Condition.Holds; decide)
  · obtain ⟨h, -⟩ := step_jump (m := jumping) (s := jumpingState 2) rfl
    exact (h rfl rfl).2.next 4 rfl (by decide)
  · obtain ⟨h, -⟩ := step_jump (m := jumping) (s := jumpingState 3) rfl
    exact (h rfl rfl).2.trap (by decide)

end Machine

end Ebpf
