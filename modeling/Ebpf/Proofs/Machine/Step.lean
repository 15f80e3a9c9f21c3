import Ebpf.Proofs.Machine.Effect

/-! # One instruction

What a step that succeeds and a step that traps do to the state. A step that succeeds counts one
instruction and, unless it jumps, moves to the slot behind the instruction. A step that traps does
so because nothing can be fetched, because call dispatch refuses a call, because a helper fails or
because of an execution fault.
-/

namespace Ebpf

def State.fetched (s : State) : State := { s with pc := s.pc + 1, steps := s.steps + 1 }

/-- A call of a helper, with what the helper gets to see. -/
structure HelperCall where
  id : UInt32
  helper : Helper
  args : List UInt64

namespace HelperCall

def result (c : HelperCall) : Except Fault UInt64 := c.helper.call c.args

end HelperCall

namespace Machine

def instruction? (m : Machine) (s : State) : Option Instruction := m.code[s.pc]?.map .decode

def helperCall? (m : Machine) (s : State) : Option HelperCall := do
  let i ← m.instruction? s
  match m.effect i s.pc s with
  | .ok (.call id helper args) => some ⟨id, helper, args⟩
  | _ => none

/-- Call dispatch refuses the call in state `s` and raises `cause`; no helper is run. -/
def Refuses (m : Machine) (s : State) (cause : Trap) : Prop :=
  ∃ i, m.instruction? s = some i ∧ i.IsCall ∧ m.effect i s.pc s = .error cause

def Jumps (m : Machine) (s : State) (off : Int16) : Prop :=
  ∃ i, m.instruction? s = some i ∧ m.effect i s.pc s = .ok (.jump off)

variable {m : Machine} {s u : State} {i : Instruction} {cause : Trap}

theorem instruction?_eq_some_iff :
    m.instruction? s = some i ↔ ∃ word, m.code[s.pc]? = some word ∧ .decode word = i :=
  Option.map_eq_some_iff

theorem pc_lt_of_instruction? (h : m.instruction? s = some i) : s.pc < m.code.size := by
  obtain ⟨word, hw, -⟩ := instruction?_eq_some_iff.mp h
  obtain ⟨hlt, -⟩ := Array.getElem?_eq_some_iff.mp hw
  exact hlt

theorem step_of_none (h : m.instruction? s = none) :
    m.step s = .trap (.fault (.pcOutOfRange s.pc)) s := by
  rw [step, Option.map_eq_none_iff.mp h]

theorem step_of_ok {e : Effect} (h : m.instruction? s = some i)
    (he : m.effect i s.pc s = .ok e) : m.step s = m.commit s.fetched s.pc e := by
  obtain ⟨word, hw, rfl⟩ := instruction?_eq_some_iff.mp h
  simp only [step, hw, he, State.fetched]

theorem step_of_error (h : m.instruction? s = some i)
    (he : m.effect i s.pc s = .error cause) : m.step s = .trap cause s.fetched := by
  obtain ⟨word, hw, rfl⟩ := instruction?_eq_some_iff.mp h
  simp only [step, hw, he, State.fetched]

theorem step_of_refuses (h : m.Refuses s cause) : m.step s = .trap cause s.fetched := by
  obtain ⟨i, hi, -, he⟩ := h
  exact step_of_error hi he

theorem helperCall?_eq_some_iff {c : HelperCall} : m.helperCall? s = some c ↔
    ∃ i, m.instruction? s = some i ∧ m.effect i s.pc s = .ok (.call c.id c.helper c.args) := by
  unfold helperCall?
  cases m.instruction? s with
  | none => simp
  | some i =>
    simp only [Option.bind_eq_bind, Option.bind_some, Option.some.injEq, exists_eq_left']
    constructor
    · intro h
      split at h
      · rename_i he
        cases h
        exact he
      · cases h
    · intro h
      rw [h]

theorem helperCall?_of_refuses (h : m.Refuses s cause) : m.helperCall? s = none := by
  obtain ⟨i, hi, -, he⟩ := h
  simp only [helperCall?, hi, he, Option.bind_eq_bind, Option.bind_some]

theorem step_of_helperCall? {c : HelperCall} (h : m.helperCall? s = some c) :
    m.step s = match c.result with
      | .ok value => .next { s.fetched with
          regs := if c.helper.signature.returns then s.regs.set 0 value else s.regs }
      | .error fault => .trap (.fault (fault.raisedBy c.id)) s.fetched := by
  obtain ⟨i, hi, he⟩ := helperCall?_eq_some_iff.mp h
  rw [step_of_ok hi he]
  simp only [commit, runHelper, HelperCall.result]
  cases c.helper.call c.args with
  | error fault => rfl
  | ok value => cases c.helper.signature.returns <;> rfl

theorem writeRegister_next {t : State} {pc : Nat} {reg : UInt8} {value : UInt64}
    (h : writeRegister t pc reg value = .next u) :
    u = { t with regs := t.regs.set reg value } := by
  unfold writeRegister at h
  split at h
  · cases h; rfl
  · cases h

theorem writeRegister_trap {t : State} {pc : Nat} {reg : UInt8} {value : UInt64}
    (h : writeRegister t pc reg value = .trap cause u) :
    ¬ reg < framePointer ∧ cause = .fault (.invalidRegister reg pc) ∧ u = t := by
  unfold writeRegister at h
  split at h
  · cases h
  · rename_i hreg
    cases h; exact ⟨hreg, rfl, rfl⟩

theorem jumpBy_next {t : State} {off : Int16} (h : m.jumpBy t off = .next u) :
    u.steps = t.steps ∧ (u.pc : Int) = t.pc + off.toInt ∧ u.pc ≤ m.code.size := by
  unfold jumpBy at h
  dsimp only at h
  split at h
  · cases h
  · cases h
    refine ⟨rfl, ?_, ?_⟩ <;> dsimp only <;> omega

theorem jumpBy_trap {t : State} {off : Int16} (h : m.jumpBy t off = .trap cause u) :
    (∃ pc, cause = .fault (.pcOutOfRange pc)) ∧ u = t := by
  unfold jumpBy at h
  dsimp only at h
  split at h
  · cases h; exact ⟨⟨_, rfl⟩, rfl⟩
  · cases h

/-- Past the fetch, only a jump and the second slot of a wide load move the counter. -/
theorem commit_next {t : State} {pc : Nat} {e : Effect} (h : m.commit t pc e = .next u) :
    u.steps = t.steps ∧ (u.pc + 1 = t.pc + e.slots ∨
      ∃ off, e = .jump off ∧ (u.pc : Int) = t.pc + off.toInt ∧ u.pc ≤ m.code.size) := by
  cases e with
  | keep => cases h; exact ⟨rfl, Or.inl rfl⟩
  | write reg value => cases writeRegister_next h; exact ⟨rfl, Or.inl rfl⟩
  | writeWide reg value => cases writeRegister_next h; exact ⟨rfl, Or.inl rfl⟩
  | store addr len value =>
    simp only [commit] at h
    split at h
    · cases h; exact ⟨rfl, Or.inl rfl⟩
    · cases h
  | jump off =>
    obtain ⟨hs, hpc⟩ := jumpBy_next h
    exact ⟨hs, Or.inr ⟨off, rfl, hpc⟩⟩
  | call id helper args =>
    simp only [commit, runHelper] at h
    split at h
    · split at h
      · cases writeRegister_next h; exact ⟨rfl, Or.inl rfl⟩
      · cases h; exact ⟨rfl, Or.inl rfl⟩
    · cases h
  | exit value => cases h

theorem commit_trap {t : State} {pc : Nat} {e : Effect} (h : m.commit t pc e = .trap cause u) :
    (∃ id helper args f, e = .call id helper args ∧ helper.call args = .error f ∧
        cause = .fault (f.raisedBy id)) ∨
      ∃ f, cause = .fault f ∧ f.IsExecution := by
  cases e with
  | keep => cases h
  | write reg value => exact Or.inr ⟨_, (writeRegister_trap h).2.1, trivial⟩
  | writeWide reg value => exact Or.inr ⟨_, (writeRegister_trap h).2.1, trivial⟩
  | store addr len value =>
    simp only [commit] at h
    split at h
    · cases h
    · cases h; exact Or.inr ⟨_, rfl, trivial⟩
  | jump off =>
    obtain ⟨⟨target, rfl⟩, -⟩ := jumpBy_trap h
    exact Or.inr ⟨_, rfl, trivial⟩
  | call id helper args =>
    simp only [commit, runHelper] at h
    split at h
    · split at h
      · exact Or.inr ⟨_, (writeRegister_trap h).2.1, trivial⟩
      · cases h
    · rename_i f hf
      cases h
      exact Or.inl ⟨id, helper, args, f, rfl, hf, rfl⟩
  | exit value => cases h

/-- A trap that is raised past the fetch moves the counter over the slots of its instruction, and a
wide load is refused there only for its register. -/
theorem commit_trap_state {t : State} {pc : Nat} {e : Effect}
    (h : m.commit t pc e = .trap cause u) :
    u.regs = t.regs ∧ u.memory = t.memory ∧ u.steps = t.steps ∧ u.pc + 1 = t.pc + e.slots ∧
      ∀ reg value, e = .writeWide reg value → ¬ reg < framePointer := by
  cases e with
  | keep => cases h
  | write reg value =>
    obtain ⟨-, -, rfl⟩ := writeRegister_trap h
    exact ⟨rfl, rfl, rfl, rfl, nofun⟩
  | writeWide reg value =>
    obtain ⟨hreg, -, rfl⟩ := writeRegister_trap h
    refine ⟨rfl, rfl, rfl, rfl, ?_⟩
    rintro other value ⟨⟩
    exact hreg
  | store addr len value =>
    simp only [commit] at h
    split at h
    · cases h
    · cases h; exact ⟨rfl, rfl, rfl, rfl, nofun⟩
  | jump off =>
    obtain ⟨-, rfl⟩ := jumpBy_trap h
    exact ⟨rfl, rfl, rfl, rfl, nofun⟩
  | call id helper args =>
    simp only [commit, runHelper] at h
    split at h
    · split at h
      · obtain ⟨-, -, rfl⟩ := writeRegister_trap h
        exact ⟨rfl, rfl, rfl, rfl, nofun⟩
      · cases h
    · cases h; exact ⟨rfl, rfl, rfl, rfl, nofun⟩
  | exit value => cases h

theorem step_next_cases (h : m.step s = .next u) : ∃ i e, m.instruction? s = some i ∧
    m.effect i s.pc s = .ok e ∧ m.commit s.fetched s.pc e = .next u := by
  cases hi : m.instruction? s with
  | none => rw [step_of_none hi] at h; cases h
  | some i =>
    cases he : m.effect i s.pc s with
    | error cause => rw [step_of_error hi he] at h; cases h
    | ok e => exact ⟨i, e, rfl, he, (step_of_ok hi he).symm.trans h⟩

/-- A step that succeeds counts one instruction and goes on behind it, or it jumps. -/
theorem step_next (h : m.step s = .next u) : ∃ i, m.instruction? s = some i ∧
    u.steps = s.steps + 1 ∧ (u.pc = s.pc + i.width ∨
      ∃ off, m.Jumps s off ∧ (u.pc : Int) = s.pc + 1 + off.toInt ∧ u.pc ≤ m.code.size) := by
  obtain ⟨i, e, hi, he, hcommit⟩ := step_next_cases h
  obtain ⟨hs, hpc⟩ := commit_next hcommit
  refine ⟨i, hi, hs, ?_⟩
  rcases hpc with hpc | ⟨off, rfl, hpc, hle⟩
  · rw [(effect_ends.of_ok he).slots_eq] at hpc
    exact Or.inl (by simp only [State.fetched] at hpc; omega)
  · exact Or.inr ⟨off, ⟨i, hi, he⟩, by simpa [State.fetched] using hpc, hle⟩

theorem step_trap_cases (h : m.step s = .trap cause u) :
    m.instruction? s = none ∧ cause = .fault (.pcOutOfRange s.pc) ∧ u = s ∨
      ∃ i, m.instruction? s = some i ∧
        (m.effect i s.pc s = .error cause ∧ u = s.fetched ∨
          ∃ e, m.effect i s.pc s = .ok e ∧ m.commit s.fetched s.pc e = .trap cause u) := by
  cases hi : m.instruction? s with
  | none =>
    rw [step_of_none hi] at h
    cases h
    exact Or.inl ⟨rfl, rfl, rfl⟩
  | some i =>
    refine Or.inr ⟨i, rfl, ?_⟩
    cases he : m.effect i s.pc s with
    | error other =>
      rw [step_of_error hi he] at h
      cases h
      exact Or.inl ⟨rfl, rfl⟩
    | ok e =>
      rw [step_of_ok hi he] at h
      exact Or.inr ⟨e, rfl, h⟩

theorem step_trap (h : m.step s = .trap cause u) : m.Refuses s cause ∨
    (∃ c f, m.helperCall? s = some c ∧ c.result = .error f ∧ cause = .fault (f.raisedBy c.id)) ∨
    ∃ f, cause = .fault f ∧ f.IsExecution := by
  rcases step_trap_cases h with ⟨-, rfl, -⟩ | ⟨i, hi, ⟨he, -⟩ | ⟨e, he, hcommit⟩⟩
  · exact Or.inr (Or.inr ⟨_, rfl, trivial⟩)
  · rcases (effect_ends.of_error he).isCall_or_isExecution with hc | hf
    · exact Or.inl ⟨i, hi, hc, he⟩
    · exact Or.inr (Or.inr hf)
  · rcases commit_trap hcommit with ⟨id, helper, args, f, rfl, hf, rfl⟩ | hf
    · have hc := helperCall?_eq_some_iff (c := ⟨id, helper, args⟩).mpr ⟨i, hi, he⟩
      exact Or.inr (Or.inl ⟨_, f, hc, hf, rfl⟩)
    · exact Or.inr (Or.inr hf)

end Machine

end Ebpf
