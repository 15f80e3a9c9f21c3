import Ebpf.Instruction.Assembly
import Ebpf.Proofs.Machine.Run
import Ebpf.Proofs.Machine.Start

/-! # What a trap leaves behind

A trap changes neither registers nor memory. If an instruction was fetched, it has been counted and
the program counter stands behind its first slot, or behind both slots of a wide load that names a
register it must not write. If nothing was fetched, the state is unchanged.
-/

namespace Ebpf

open Assembly

namespace Machine

variable {m : Machine} {s t u : State} {i : Instruction} {cause : Trap}

/-- Instruction `i` in state `s` is a wide load, and a slot of opcode 0 follows as its second. -/
def AcceptsWide (m : Machine) (s : State) (i : Instruction) : Prop :=
  i.isWide = true ∧ ∃ word, m.code[s.pc + 1]? = some word ∧ (Instruction.decode word).opcode = 0

theorem effect_of_isWide_eq_ok_iff {pc : Nat} {e : Effect} (h : i.isWide = true) :
    m.effect i pc s = .ok e ↔ ∃ word, m.code[pc + 1]? = some word ∧
      (Instruction.decode word).opcode = 0 ∧
        e = .writeWide i.dst (Instruction.wideImmediate i (.decode word)) := by
  have hquery : m.query i pc = i.wideQuery pc := by
    simp only [query, Instruction.cls_of_isWide h, h, if_true]
  rw [effect, hquery, Instruction.wideQuery, Query.eval_fetch_bind_eq_ok_iff]
  simp only [answer_slot_eq_ok_iff]
  refine exists_congr fun word => and_congr_right fun _ => ?_
  split
  · rename_i hop
    constructor
    · rintro ⟨⟩
      exact ⟨hop, rfl⟩
    · rintro ⟨-, rfl⟩
      rfl
  · rename_i hop
    constructor
    · intro h
      cases h
    · rintro ⟨h, -⟩
      exact absurd h hop

theorem acceptsWide_iff :
    m.AcceptsWide s i ↔ ∃ value, m.effect i s.pc s = .ok (.writeWide i.dst value) := by
  constructor
  · rintro ⟨hw, word, hword, hop⟩
    exact ⟨_, (effect_of_isWide_eq_ok_iff hw).mpr ⟨word, hword, hop, rfl⟩⟩
  · rintro ⟨value, he⟩
    obtain ⟨hw, -⟩ := effect_ends.of_ok he
    obtain ⟨word, hnext, hop, -⟩ := (effect_of_isWide_eq_ok_iff hw).mp he
    exact ⟨hw, word, hnext, hop⟩

/-- The instruction that a turn in state `s` fetches, if the budget and the code allow it. -/
def fetch? (m : Machine) (s : State) : Option Instruction :=
  if s.steps < m.budget.toNat then m.instruction? s else none

/-- What a trap raised in state `s` leaves behind. -/
inductive Intact (m : Machine) (s : State) : State → Prop where
  | unfetched (h : m.fetch? s = none) : Intact m s s
  | fetched {i : Instruction} (h : m.fetch? s = some i)
      (hw : ¬ (m.AcceptsWide s i ∧ framePointer ≤ i.dst)) :
      Intact m s { s with pc := s.pc + 1, steps := s.steps + 1 }
  | wide {i : Instruction} (h : m.fetch? s = some i)
      (hw : m.AcceptsWide s i ∧ framePointer ≤ i.dst) :
      Intact m s { s with pc := s.pc + 2, steps := s.steps + 1 }

theorem turn_of_lt (h : s.steps < m.budget.toNat) : m.turn s = m.step s :=
  if_neg (Nat.not_le_of_lt h)

theorem intact_fetched (h : m.fetch? s = some i)
    (he : ∀ value, m.effect i s.pc s ≠ .ok (.writeWide i.dst value)) : m.Intact s s.fetched := by
  refine .fetched h ?_
  rintro ⟨hw, -⟩
  obtain ⟨value, hv⟩ := acceptsWide_iff.mp hw
  exact he value hv

/-- Past the fetch, only a wide load that is accepted is more than one slot behind. -/
theorem intact_of_commit_trap {e : Effect} (h : m.fetch? s = some i)
    (he : m.effect i s.pc s = .ok e) (ht : m.commit s.fetched s.pc e = .trap cause u) :
    m.Intact s u := by
  obtain ⟨hr, hm, hs, hpc, hreg⟩ := commit_trap_state ht
  have hu : u = { s with pc := s.pc + e.slots, steps := s.steps + 1 } := by
    cases u
    simp only [State.fetched, State.mk.injEq] at *
    exact ⟨hr, hm, by omega, hs⟩
  rw [hu]
  cases e with
  | writeWide reg value =>
    obtain ⟨-, rfl⟩ := effect_ends.of_ok he
    exact .wide h ⟨acceptsWide_iff.mpr ⟨value, he⟩, UInt8.not_lt.mp (hreg _ _ rfl)⟩
  | _ => exact intact_fetched h fun value hv => by rw [he] at hv; cases hv

theorem intact_of_turn (h : m.turn s = .trap cause u) : m.Intact s u := by
  by_cases hlt : s.steps < m.budget.toNat
  · have hf : m.fetch? s = m.instruction? s := if_pos hlt
    rw [turn_of_lt hlt] at h
    rcases step_trap_cases h with ⟨hi, -, rfl⟩ | ⟨i, hi, ⟨he, rfl⟩ | ⟨e, he, hcommit⟩⟩
    · exact .unfetched (hf.trans hi)
    · exact intact_fetched (hf.trans hi) fun value hv => by rw [he] at hv; cases hv
    · exact intact_of_commit_trap (hf.trans hi) he hcommit
  · rw [turn, if_pos (Nat.le_of_not_lt hlt)] at h
    cases h
    exact .unfetched (if_neg hlt)

/-- A trap leaves the machine intact, and so does every run that fails with respect to the state in
which its trap is raised. -/
theorem trap_intact (m : Machine) (s : State) (cause : Trap) (u : State) :
    (m.turn s = .trap cause u → m.Intact s u) ∧
    (m.run s = (.error cause, u) →
      ∃ t, m.Reaches s t ∧ m.turn t = .trap cause u ∧ m.Intact t u) := by
  constructor
  · exact intact_of_turn
  · intro h
    obtain ⟨t, hr, ht⟩ := run_error_turn h
    exact ⟨t, hr, ht, intact_of_turn ht⟩

def wideIntoFrame : Machine := ofCode #[word opLddw framePointer 0 0 1, 0, exit] .empty .empty

theorem trap_intact_wideIntoFrame : ∃ s t : State,
    Machine.start wideIntoFrame.program .empty {} = .ok (wideIntoFrame, s) ∧
    wideIntoFrame.run s = (.error (.fault (.invalidRegister framePointer 0)), t) ∧
    wideIntoFrame.Intact s t ∧ t = { s with pc := 2, steps := 1 } := by
  have ht : wideIntoFrame.turn (.initial .blank) =
      .trap (.fault (.invalidRegister framePointer 0))
        { State.initial .blank with pc := 2, steps := 1 } := rfl
  obtain ⟨hintact, -⟩ := trap_intact wideIntoFrame (.initial .blank) _ _
  exact ⟨_, _, start_ofCode, run_of_trap ⟨.refl, by decide⟩ ht, hintact ht, rfl⟩

end Machine

end Ebpf
