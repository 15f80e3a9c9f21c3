import Mathlib.Logic.Relation
import Ebpf.Machine.Run
import Ebpf.Proofs.Machine.Step

/-! # Runs as sequences of steps

A run executes the states that steps reach from its first state while its counter is below the
budget. It ends in the first of them that exits or traps, and else in the state in which the
budget is used up. The helpers it calls are those that the executed states call.
-/

namespace Ebpf.Machine

/-- One instruction takes the machine from `s` to `u`. -/
def Next (m : Machine) (s u : State) : Prop := m.step s = .next u

/-- Some number of instructions takes the machine from `s` to `t`. -/
def Reaches (m : Machine) : State → State → Prop := Relation.ReflTransGen m.Next

/-- The run from `s` comes to execute the instruction in state `t`. -/
def Executes (m : Machine) (s t : State) : Prop := m.Reaches s t ∧ t.steps < m.budget.toNat

/-- What a run does first: it looks at its budget and then executes one instruction. -/
def turn (m : Machine) (s : State) : Outcome :=
  if m.budget.toNat ≤ s.steps then .trap (.fault (.stepLimitExceeded m.budget)) s else m.step s

def helperCallsFor (m : Machine) : Nat → State → List HelperCall
  | 0, _ => []
  | fuel + 1, s =>
    match m.step s with
    | .next u => (m.helperCall? s).toList ++ m.helperCallsFor fuel u
    | _ => (m.helperCall? s).toList

/-- The helper calls of the run from `s`, in order. -/
def helperCalls (m : Machine) (s : State) : List HelperCall :=
  m.helperCallsFor (m.budget.toNat - s.steps) s

variable {m : Machine} {s t u : State} {cause : Trap} {c : HelperCall}

theorem Next.steps_eq (h : m.Next s u) : u.steps = s.steps + 1 := by
  obtain ⟨-, -, hs, -⟩ := step_next h
  exact hs

theorem Reaches.steps_le (h : m.Reaches s t) : s.steps ≤ t.steps := by
  induction h with
  | refl => exact Nat.le_refl _
  | tail _ hn ih => have := hn.steps_eq; omega

theorem runFor_of_reaches {fuel : Nat} (h : m.Reaches s t) (hf : t.steps < s.steps + fuel) :
    ∃ fuel', m.runFor fuel s = m.runFor (fuel' + 1) t := by
  induction h using Relation.ReflTransGen.head_induction_on generalizing fuel with
  | refl =>
    obtain ⟨fuel', rfl⟩ : ∃ fuel', fuel = fuel' + 1 := ⟨fuel - 1, by omega⟩
    exact ⟨fuel', rfl⟩
  | @head s v hn hr ih =>
    have hs := hn.steps_eq
    have hle := Reaches.steps_le hr
    obtain ⟨fuel, rfl⟩ : ∃ fuel', fuel = fuel' + 1 := ⟨fuel - 1, by omega⟩
    have hlt : t.steps < v.steps + fuel := by omega
    obtain ⟨fuel', hrun⟩ := ih hlt
    refine ⟨fuel', ?_⟩
    rw [runFor, show m.step s = .next v from hn]
    exact hrun

theorem run_of_executes (h : m.Executes s t) : ∃ fuel, m.run s = m.runFor (fuel + 1) t := by
  have := Reaches.steps_le h.1
  exact runFor_of_reaches h.1 (by have := h.2; omega)

theorem run_of_trap (h : m.Executes s t) (ht : m.step t = .trap cause u) :
    m.run s = (.error cause, u) := by
  obtain ⟨fuel, hr⟩ := run_of_executes h
  rw [hr, runFor, ht]

theorem runFor_cases (fuel : Nat) (s : State) :
    (∃ t, m.Reaches s t ∧ t.steps = s.steps + fuel ∧
      m.runFor fuel s = (.error (.fault (.stepLimitExceeded m.budget)), t)) ∨
    ∃ t u, m.Reaches s t ∧ t.steps < s.steps + fuel ∧
      ((∃ cause, m.step t = .trap cause u ∧ m.runFor fuel s = (.error cause, u)) ∨
        ∃ value, m.step t = .exit value u ∧ m.runFor fuel s = (.ok value, u)) := by
  induction fuel generalizing s with
  | zero => exact Or.inl ⟨s, .refl, rfl, rfl⟩
  | succ fuel ih =>
    rw [runFor]
    cases hs : m.step s with
    | next v =>
      have hn : m.Next s v := hs
      rcases ih v with ⟨t, hr, ht, h⟩ | ⟨t, u, hr, ht, h⟩
      · exact Or.inl ⟨t, .head hn hr, by have := hn.steps_eq; omega, h⟩
      · exact Or.inr ⟨t, u, .head hn hr, by have := hn.steps_eq; omega, h⟩
    | exit value u => exact Or.inr ⟨s, u, .refl, by omega, Or.inr ⟨value, hs, rfl⟩⟩
    | trap cause u => exact Or.inr ⟨s, u, .refl, by omega, Or.inl ⟨cause, hs, rfl⟩⟩

theorem run_error_turn (h : m.run s = (.error cause, u)) :
    ∃ t, m.Reaches s t ∧ m.turn t = .trap cause u := by
  rcases runFor_cases (m.budget.toNat - s.steps) s with ⟨t, hr, ht, he⟩ | ⟨t, v, hr, ht, he⟩
  · rw [← run, h] at he
    cases he
    exact ⟨u, hr, if_pos (by omega)⟩
  · have hle := Reaches.steps_le hr
    rcases he with ⟨other, hs, he⟩ | ⟨value, -, he⟩
    · rw [← run, h] at he
      cases he
      exact ⟨t, hr, (if_neg (by omega)).trans hs⟩
    · rw [← run, h] at he
      cases he

theorem run_error (h : m.run s = (.error cause, u)) :
    cause = .fault (.stepLimitExceeded m.budget) ∨
      ∃ t, m.Executes s t ∧ m.step t = .trap cause u := by
  obtain ⟨t, hr, ht⟩ := run_error_turn h
  unfold turn at ht
  split at ht
  · cases ht
    exact Or.inl rfl
  · exact Or.inr ⟨t, ⟨hr, by omega⟩, ht⟩

theorem run_error_cases (h : m.run s = (.error cause, u)) :
    (∃ t, m.Executes s t ∧ m.Refuses t cause) ∨
    (∃ t c f, m.Executes s t ∧ m.helperCall? t = some c ∧ c.result = .error f ∧
      cause = .fault (f.raisedBy c.id)) ∨
    ∃ f, cause = .fault f ∧ f.IsExecution := by
  rcases run_error h with rfl | ⟨t, ht, hs⟩
  · exact Or.inr (Or.inr ⟨_, rfl, trivial⟩)
  · rcases step_trap hs with hr | ⟨c, f, hc⟩ | hf
    · exact Or.inl ⟨t, ht, hr⟩
    · exact Or.inr (Or.inl ⟨t, c, f, ht, hc⟩)
    · exact Or.inr (Or.inr hf)

/-! ### The helper calls of a run -/

theorem mem_helperCallsFor_succ_iff {fuel : Nat} : c ∈ m.helperCallsFor (fuel + 1) s ↔
    m.helperCall? s = some c ∨ ∃ u, m.Next s u ∧ c ∈ m.helperCallsFor fuel u := by
  unfold Next
  rw [helperCallsFor]
  cases m.step s <;> simp [Option.mem_toList]

theorem mem_helperCallsFor_iff {fuel : Nat} : c ∈ m.helperCallsFor fuel s ↔
    ∃ t, m.Reaches s t ∧ t.steps < s.steps + fuel ∧ m.helperCall? t = some c := by
  induction fuel generalizing s with
  | zero =>
    constructor
    · intro h
      cases h
    · rintro ⟨t, hr, ht, -⟩
      exact absurd (Reaches.steps_le hr) (Nat.not_le.mpr ht)
  | succ fuel ih =>
    rw [mem_helperCallsFor_succ_iff]
    constructor
    · rintro (hc | ⟨u, hn, hc⟩)
      · exact ⟨s, .refl, by omega, hc⟩
      · obtain ⟨t, hr, ht, hc⟩ := ih.mp hc
        exact ⟨t, .head hn hr, by have := hn.steps_eq; omega, hc⟩
    · rintro ⟨t, hr, ht, hc⟩
      rcases Relation.ReflTransGen.cases_head hr with rfl | ⟨u, hn, hr⟩
      · exact Or.inl hc
      · exact Or.inr ⟨u, hn, ih.mpr ⟨t, hr, by have := hn.steps_eq; omega, hc⟩⟩

theorem mem_helperCalls_iff :
    c ∈ m.helperCalls s ↔ ∃ t, m.Executes s t ∧ m.helperCall? t = some c := by
  rw [helperCalls, mem_helperCallsFor_iff]
  constructor
  · rintro ⟨t, hr, ht, hc⟩
    exact ⟨t, ⟨hr, by have := Reaches.steps_le hr; omega⟩, hc⟩
  · rintro ⟨t, ⟨hr, ht⟩, hc⟩
    exact ⟨t, hr, by omega, hc⟩

end Ebpf.Machine
