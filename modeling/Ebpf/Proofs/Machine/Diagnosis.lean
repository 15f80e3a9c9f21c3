import Ebpf.Instruction.Assembly
import Ebpf.Proofs.Machine.Frame
import Ebpf.Proofs.Machine.Run
import Ebpf.Proofs.Machine.Start

/-! # What a trap says of its instruction

Each way in which an instruction can trap fixes the fields of the fault that it raises: the opcode
and the counter that it names, the register, the divisor. A counter that is named as outside of the
code is the one that the fetch, a wide load or a jump looked for, with one exception: a jump in
front of the code is reported as a jump to the first slot.
-/

namespace Ebpf

open Assembly

namespace Machine

/-- The traps that the step from state `s` can raise. -/
inductive Raises (m : Machine) (s : State) : Trap → Prop where
  | unfetched (h : m.instruction? s = none) : Raises m s (.fault (.pcOutOfRange s.pc))
  | rejected {i : Instruction} {cause : Trap} (hi : m.instruction? s = some i)
      (h : m.Rejects i s.pc s.regs cause) : Raises m s cause
  /-- The destination is no general register. -/
  | frozen {i : Instruction} (hi : m.instruction? s = some i) (ht : i.target? = some i.dst)
      (h : ¬ i.dst < framePointer) : Raises m s (.fault (.invalidRegister i.dst s.pc))
  | outside {off : Int16} (h : m.Jumps s off)
      (hout : s.pc + 1 + off.toInt < 0 ∨ m.code.size < s.pc + 1 + off.toInt) :
      Raises m s (.fault (.pcOutOfRange (s.pc + 1 + off.toInt).toNat))
  | failed {c : HelperCall} {f : Fault} (h : m.helperCall? s = some c)
      (hf : c.result = .error f) : Raises m s (.fault (f.raisedBy c.id))

variable {m : Machine} {s t u : State} {i : Instruction} {cause : Trap} {f : Fault} {e : Effect}
  {off : Int16} {n : Nat}

theorem callee_ne_fault {id : UInt32} : m.callee id ≠ .error (.fault f) := by
  unfold callee
  split
  · nofun
  · split
    · nofun
    · split <;> nofun

/-- The one fault of call dispatch. The other refusals are no faults. -/
theorem called_fault {pc : Nat} (h : m.called i pc = .error (.fault f)) :
    i.src ≠ 0 ∧ f = .unsupportedCall pc := by
  unfold called at h
  split at h
  · rename_i hsrc
    cases h
    exact ⟨hsrc, rfl⟩
  · exact absurd h callee_ne_fault

theorem raises_of_jumpBy (hj : m.Jumps s off) (h : m.jumpBy s.fetched off = .trap cause u) :
    m.Raises s cause := by
  unfold jumpBy at h
  dsimp only [State.fetched] at h
  split at h
  · rename_i hout
    cases h
    exact .outside hj hout
  · cases h

theorem raises_of_commit (hi : m.instruction? s = some i) (he : m.effect i s.pc s = .ok e)
    (h : m.commit s.fetched s.pc e = .trap cause u) : m.Raises s cause := by
  have hallows := effect_ends.of_ok he
  have hwrites : ∀ reg, .write reg ∈ e.accesses s.pc → i.target? = some reg :=
    hallows.writes_target.1
  cases e with
  | keep => cases h
  | write reg value =>
    obtain ⟨hreg, rfl, -⟩ := writeRegister_trap h
    have ht := hwrites reg (List.mem_singleton_self _)
    rcases hallows with ⟨-, rfl⟩ | ⟨-, -, rfl⟩
    · exact .frozen hi ht hreg
    · exact absurd (by decide) hreg
  | writeWide reg value =>
    obtain ⟨hreg, rfl, -⟩ := writeRegister_trap h
    have ht := hwrites reg (List.mem_singleton_self _)
    obtain ⟨-, rfl⟩ := hallows
    exact .frozen hi ht hreg
  | store addr len value =>
    simp only [commit] at h
    split at h
    · cases h
    · cases h
      exact .rejected hi (.met .bounds)
  | jump off => exact raises_of_jumpBy ⟨i, hi, he⟩ h
  | call id helper args =>
    have hcall := helperCall?_eq_some_iff (c := ⟨id, helper, args⟩).mpr ⟨i, hi, he⟩
    rw [← step_of_ok hi he, step_of_helperCall? hcall] at h
    split at h
    · cases h
    · rename_i f hf
      cases h
      exact .failed hcall hf
  | exit value => cases h

theorem raises_of_step (h : m.step s = .trap cause u) : m.Raises s cause := by
  rcases step_trap_cases h with ⟨hi, rfl, -⟩ | ⟨i, hi, ⟨he, -⟩ | ⟨e, he, hcommit⟩⟩
  · exact .unfetched hi
  · exact .rejected hi (effect_ends.of_error he)
  · exact raises_of_commit hi he hcommit

/-! ### Counters outside of the code -/

/-- The slot that the step from state `s` looks for: the one to be fetched, the second one of a wide
load, or the target of a jump. -/
inductive Seeks (m : Machine) (s : State) : Int → Prop where
  | fetch (h : m.instruction? s = none) : Seeks m s s.pc
  | second {i : Instruction} (hi : m.instruction? s = some i) (hw : i.isWide = true)
      (h : m.code[s.pc + 1]? = none) : Seeks m s (s.pc + 1)
  | target {off : Int16} (h : m.Jumps s off) : Seeks m s (s.pc + 1 + off.toInt)

theorem size_le_of_instruction? (h : m.instruction? s = none) : m.code.size ≤ s.pc :=
  Array.getElem?_eq_none_iff.mp (Option.map_eq_none_iff.mp h)

theorem pc_lt_of_jumps (h : m.Jumps s off) : s.pc < m.code.size := by
  obtain ⟨i, hi, -⟩ := h
  exact pc_lt_of_instruction? hi

/-- Of the instructions that are left without an effect, only a wide load blames the counter. -/
theorem Rejects.of_pcOutOfRange {regs : Registers} {pc : Nat}
    (h : m.Rejects i pc regs (.fault (.pcOutOfRange n))) :
    i.isWide = true ∧ m.code[pc + 1]? = none ∧ n = pc + 1 := by
  generalize hcause : Trap.fault (.pcOutOfRange n) = cause at h
  cases h with
  | call _ he =>
    subst hcause
    cases (called_fault he).2
  | met h => cases hcause; cases h
  | wide hw h =>
    cases hcause
    cases h with
    | missing h => exact ⟨hw, h, rfl⟩

theorem raisedBy_eq_pcOutOfRange {id : UInt32} (h : f.raisedBy id = .pcOutOfRange n) :
    f = .pcOutOfRange n := by
  cases f <;> cases h
  rfl

/-- Unless a helper fails with it, the fault names the slot that the step looks for, or slot 0 if
that lies in front of the code. -/
theorem seeks_of_raises (h : m.Raises s (.fault (.pcOutOfRange n))) :
    (∃ c, m.helperCall? s = some c ∧ c.result = .error (.pcOutOfRange n)) ∨
      ∃ target, m.Seeks s target ∧ n = target.toNat ∧ (n < m.code.size ↔ target < 0) := by
  generalize hcause : Trap.fault (.pcOutOfRange n) = cause at h
  cases h with
  | unfetched h =>
    cases hcause
    have hle := size_le_of_instruction? h
    exact Or.inr ⟨_, .fetch h, rfl, by omega⟩
  | @rejected i cause hi h =>
    subst hcause
    obtain ⟨hw, hnext, rfl⟩ := h.of_pcOutOfRange
    have hle := Array.getElem?_eq_none_iff.mp hnext
    exact Or.inr ⟨_, .second hi hw hnext, rfl, by omega⟩
  | frozen => cases hcause
  | @outside off h hout =>
    cases hcause
    have hlt := pc_lt_of_jumps h
    exact Or.inr ⟨_, .target h, rfl, by omega⟩
  | @failed c f h hf =>
    rw [raisedBy_eq_pcOutOfRange (Trap.fault.inj hcause).symm] at hf
    exact Or.inl ⟨c, h, hf⟩

theorem step_of_jumps_before (h : m.Jumps s off) (hneg : s.pc + 1 + off.toInt < 0) :
    m.step s = .trap (.fault (.pcOutOfRange 0)) s.fetched := by
  obtain ⟨i, hi, he⟩ := h
  have hneg : (s.fetched.pc : Int) + off.toInt < 0 := by
    simp only [State.fetched]
    omega
  rw [step_of_ok hi he, commit, jumpBy, if_pos (Or.inl hneg),
    Int.toNat_of_nonpos (Int.le_of_lt hneg)]

/-- A run that fails because of its counter is told so by a helper, or it names the slot that its
last step looks for. The slot that is named lies behind the code, unless the step jumps in front of
the code: every such jump is reported as a jump to slot 0, which the code has. -/
theorem run_pcOutOfRange (m : Machine) (s : State) :
    (∀ n u, m.run s = (.error (.fault (.pcOutOfRange n)), u) →
      ∃ t, m.Executes s t ∧ m.step t = .trap (.fault (.pcOutOfRange n)) u ∧
        ((∃ c, m.helperCall? t = some c ∧ c.result = .error (.pcOutOfRange n)) ∨
          ∃ target, m.Seeks t target ∧ n = target.toNat ∧ (n < m.code.size ↔ target < 0))) ∧
    ∀ t off, m.Executes s t → m.Jumps t off → t.pc + 1 + off.toInt < 0 →
      m.run s = (.error (.fault (.pcOutOfRange 0)), t.fetched) ∧ 0 < m.code.size := by
  constructor
  · intro n u h
    rcases run_error h with hlimit | ⟨t, ht, hstep⟩
    · cases hlimit
    · exact ⟨t, ht, hstep, seeks_of_raises (raises_of_step hstep)⟩
  · intro t off ht hj hneg
    exact ⟨run_of_trap ht (step_of_jumps_before hj hneg), Nat.zero_lt_of_lt (pc_lt_of_jumps hj)⟩

def leapingBack : Machine := ofCode #[ja (-2), exit] .empty .empty

/-- The first slot is named as outside of the code. -/
theorem step_leapingBack : ∃ s u,
    Machine.start leapingBack.program .empty {} = .ok (leapingBack, s) ∧
    leapingBack.Executes s s ∧ leapingBack.helperCall? s = none ∧
    leapingBack.step s = .trap (.fault (.pcOutOfRange 0)) u ∧
    leapingBack.run s = (.error (.fault (.pcOutOfRange 0)), u) ∧ 0 < leapingBack.code.size := by
  have hexec : leapingBack.Executes (.initial .blank) (.initial .blank) := ⟨.refl, by decide⟩
  have hstep : leapingBack.step (.initial .blank) =
      .trap (.fault (.pcOutOfRange 0)) (State.initial .blank).fetched := rfl
  exact ⟨_, _, start_ofCode, hexec, rfl, hstep, run_of_trap hexec hstep, by decide⟩

def halvedWide : Machine := ofCode #[word opLddw 0 0 0 1] .empty .empty

theorem run_pcOutOfRange_halvedWide :
    (∃ t target, halvedWide.Executes (.initial .blank) t ∧ halvedWide.Seeks t target ∧
      target.toNat = 1 ∧ ¬ target < 0) ∧
    leapingBack.run (.initial .blank) =
      (.error (.fault (.pcOutOfRange 0)), (State.initial .blank).fetched) := by
  constructor
  · have hrun : halvedWide.run (.initial .blank) =
        (.error (.fault (.pcOutOfRange 1)), (State.initial .blank).fetched) :=
      run_of_trap ⟨.refl, by decide⟩ rfl
    obtain ⟨h, -⟩ := run_pcOutOfRange halvedWide (.initial .blank)
    obtain ⟨t, ht, -, ⟨c, hc, -⟩ | ⟨target, hseeks, hn, hlt⟩⟩ := h _ _ hrun
    · obtain ⟨i, -, he⟩ := helperCall?_eq_some_iff.mp hc
      obtain ⟨-, -, -, hcallee, -⟩ := effect_ends.of_ok he
      cases (callee_eq_ok_iff.mp hcallee).1
    · exact ⟨t, target, ht, hseeks, hn.symm, mt hlt.mpr (by decide)⟩
  · obtain ⟨-, h⟩ := run_pcOutOfRange leapingBack (.initial .blank)
    exact (h _ _ ⟨.refl, by decide⟩ ⟨_, rfl, rfl⟩ (by decide)).1

end Machine

end Ebpf
