import Ebpf.Instruction.Assembly
import Ebpf.Proofs.Machine.Run
import Ebpf.Proofs.Machine.Start

/-! # Runs under different budgets

No instruction looks at the budget, so a budget only cuts a run short. A run that ends by itself
ends in the same way under any larger budget, and a run that its budget stops can be taken up again
with a larger one as if it had never stopped.
-/

namespace Ebpf

open Assembly

def Outcome.result? : Outcome → Option (Except Trap UInt64 × State)
  | .next _ => none
  | .exit value u => some (.ok value, u)
  | .trap cause u => some (.error cause, u)

namespace Machine

def withBudget (m : Machine) (budget : UInt64) : Machine := { m with budget }

/-- The state behind `count` more instructions, if none of them exits or traps. -/
def after (m : Machine) : Nat → State → Option State
  | 0, s => some s
  | count + 1, s =>
    match m.step s with
    | .next u => m.after count u
    | _ => none

/-- The run from `s` comes to `t` and finds its budget used up there. -/
def StopsAtLimit (m : Machine) (s t : State) : Prop :=
  m.Reaches s t ∧ t.steps = max s.steps m.budget.toNat

variable {m : Machine} {s t u : State} {n n' : UInt64} {count : Nat}

theorem step_withBudget (m : Machine) (n : UInt64) (s : State) :
    (m.withBudget n).step s = m.step s := rfl

theorem reaches_withBudget : (m.withBudget n).Reaches s t ↔ m.Reaches s t := Iff.rfl

theorem after_eq_some_iff :
    m.after count s = some t ↔ m.Reaches s t ∧ t.steps = s.steps + count := by
  constructor
  · intro h
    induction count generalizing s with
    | zero => cases h; exact ⟨.refl, rfl⟩
    | succ count ih =>
      rw [after] at h
      split at h
      · rename_i v hs
        have hn : m.Next s v := hs
        obtain ⟨hr, ht⟩ := ih h
        exact ⟨.head hn hr, by have := hn.steps_eq; omega⟩
      · cases h
  · rintro ⟨hr, ht⟩
    induction hr using Relation.ReflTransGen.head_induction_on generalizing count with
    | refl =>
      obtain rfl : count = 0 := by omega
      rfl
    | @head s v hn hr ih =>
      have hs := hn.steps_eq
      have hle := Reaches.steps_le hr
      obtain ⟨count, rfl⟩ : ∃ k, count = k + 1 := ⟨count - 1, by omega⟩
      rw [after, show m.step s = .next v from hn]
      exact ih (by omega)

theorem stopsAtLimit_iff :
    m.StopsAtLimit s t ↔ m.after (m.budget.toNat - s.steps) s = some t := by
  rw [after_eq_some_iff, StopsAtLimit,
    show max s.steps m.budget.toNat = s.steps + (m.budget.toNat - s.steps) by omega]

theorem runFor_of_after (h : m.after count s = some t) (more : Nat) :
    m.runFor (count + more) s = m.runFor more t := by
  induction count generalizing s with
  | zero => cases h; rw [Nat.zero_add]
  | succ count ih =>
    rw [after] at h
    split at h
    · rename_i v hs
      rw [Nat.add_right_comm, runFor, hs]
      exact ih h
    · cases h

theorem run_of_stopsAtLimit (h : m.StopsAtLimit s t) :
    m.run s = (.error (.fault (.stepLimitExceeded m.budget)), t) :=
  runFor_of_after (stopsAtLimit_iff.mp h) 0

theorem runFor_of_after_eq_none (h : m.after count s = none) :
    ∃ t result, m.Reaches s t ∧ t.steps < s.steps + count ∧ (m.step t).result? = some result ∧
      ∀ n more, (m.withBudget n).runFor (count + more) s = result := by
  induction count generalizing s with
  | zero => cases h
  | succ count ih =>
    rw [after] at h
    cases hs : m.step s with
    | next v =>
      have hn : m.Next s v := hs
      have hsteps := hn.steps_eq
      rw [hs] at h
      obtain ⟨t, result, hr, ht, hres, hrun⟩ := ih h
      refine ⟨t, result, .head hn hr, by omega, hres, fun n more => ?_⟩
      rw [Nat.add_right_comm, runFor, step_withBudget, hs]
      exact hrun n more
    | exit value u =>
      refine ⟨s, _, .refl, by omega, by rw [hs]; rfl, fun n more => ?_⟩
      rw [Nat.add_right_comm, runFor, step_withBudget, hs]
    | trap cause u =>
      refine ⟨s, _, .refl, by omega, by rw [hs]; rfl, fun n more => ?_⟩
      rw [Nat.add_right_comm, runFor, step_withBudget, hs]

theorem after_add (first second : Nat) (s : State) :
    m.after (first + second) s = (m.after first s).bind (m.after second) := by
  induction first generalizing s with
  | zero => rw [Nat.zero_add]; rfl
  | succ first ih =>
    rw [Nat.add_right_comm, after, after]
    cases m.step s with
    | next v => exact ih v
    | _ => rfl

theorem exists_stopsAtLimit (h : m.after count s = some t)
    (hle : n.toNat ≤ s.steps + count) : ∃ u, (m.withBudget n).StopsAtLimit s u := by
  obtain ⟨rest, rfl⟩ : ∃ rest, count = n.toNat - s.steps + rest :=
    ⟨count - (n.toNat - s.steps), by omega⟩
  rw [after_add, Option.bind_eq_some_iff] at h
  obtain ⟨u, hu, -⟩ := h
  obtain ⟨hr, hs⟩ := after_eq_some_iff.mp hu
  refine ⟨u, reaches_withBudget.mpr hr, ?_⟩
  dsimp only [withBudget]
  omega

theorem run_of_exit {value : UInt64} (h : m.after count s = some t)
    (ht : m.step t = .exit value u) (hlt : s.steps + count < n.toNat) :
    (m.withBudget n).run s = (.ok value, u) := by
  have hex : (m.withBudget n).Executes s t := by
    obtain ⟨hr, hs⟩ := after_eq_some_iff.mp h
    exact ⟨reaches_withBudget.mpr hr, by rw [hs]; exact hlt⟩
  obtain ⟨fuel, hr⟩ := run_of_executes hex
  rw [hr, runFor, step_withBudget, ht]

theorem start_withBudget {program : Program} {table : HelperTable} {settings : Settings}
    (h : Machine.start program table settings = .ok (m, s)) (n : UInt64) :
    Machine.start program table { settings with budget := n } = .ok (m.withBudget n, s) := by
  obtain ⟨entry, memory, he, hm, rfl, rfl⟩ := start_eq_ok_iff.mp h
  exact start_eq_ok_iff.mpr ⟨entry, memory, he, hm, rfl, rfl⟩

theorem steps_of_start {program : Program} {table : HelperTable} {settings : Settings}
    {args : List UInt64} (hm : Machine.start program table settings = .ok (m, s))
    (hs : Invocation.bindArguments s args = .ok t) : t.steps = 0 := by
  obtain ⟨-, memory, -, -, -, rfl⟩ := start_eq_ok_iff.mp hm
  obtain ⟨-, -, hsteps⟩ := Invocation.bindArguments_eq_ok hs
  exact hsteps

theorem run_resume (hle : n ≤ n') (h : (m.withBudget n).StopsAtLimit s t) :
    (m.withBudget n').run t = (m.withBudget n').run s := by
  have hle : n.toNat ≤ n'.toNat := hle
  obtain ⟨hr, ht⟩ := h
  dsimp only [withBudget] at ht
  have ha : (m.withBudget n').after (t.steps - s.steps) s = some t :=
    after_eq_some_iff.mpr ⟨hr, by omega⟩
  have hsplit : n'.toNat - s.steps = (t.steps - s.steps) + (n'.toNat - t.steps) := by omega
  calc (m.withBudget n').run t
      = (m.withBudget n').runFor ((t.steps - s.steps) + (n'.toNat - t.steps)) s :=
        (runFor_of_after ha _).symm
    _ = (m.withBudget n').run s := by rw [← hsplit]; rfl

theorem run_eq_of_not_stopsAtLimit (hle : n ≤ n')
    (h : ∀ t, ¬ (m.withBudget n).StopsAtLimit s t) :
    (∃ t, (m.withBudget n).Executes s t ∧
      (m.step t).result? = some ((m.withBudget n).run s)) ∧
    (m.withBudget n').run s = (m.withBudget n).run s := by
  have hle : n.toNat ≤ n'.toNat := hle
  have hnone : (m.withBudget n).after (n.toNat - s.steps) s = none :=
    Option.eq_none_iff_forall_ne_some.mpr fun t ht => h t (stopsAtLimit_iff.mpr ht)
  obtain ⟨t, result, hr, hlt, hres, hrun⟩ := runFor_of_after_eq_none hnone
  have hn : (m.withBudget n).run s = result := hrun n 0
  have hn' : (m.withBudget n').run s = result := by
    have hsplit : n'.toNat - s.steps = (n.toNat - s.steps) + (n'.toNat - max s.steps n.toNat) := by
      omega
    rw [run, show (m.withBudget n').budget.toNat - s.steps = _ from hsplit]
    exact hrun n' _
  have := Reaches.steps_le hr
  exact ⟨⟨t, ⟨hr, by dsimp only [withBudget]; omega⟩, by rw [hn]; exact hres⟩, hn'.trans hn.symm⟩

/-- Under a larger budget a run is the same if it ends by itself, and goes on if its budget stops
it. A run of a fresh machine that exits needs as much budget as it executes instructions. -/
theorem run_withBudget (m : Machine) (s : State) :
    (∀ n n' : UInt64, n ≤ n' →
      (∀ t, (m.withBudget n).StopsAtLimit s t →
        (m.withBudget n).run s = (.error (.fault (.stepLimitExceeded n)), t) ∧
        m.after (n.toNat - s.steps) s = some t ∧
        (m.withBudget n').run t = (m.withBudget n').run s) ∧
      ((∀ t, ¬ (m.withBudget n).StopsAtLimit s t) →
        (∃ t, (m.withBudget n).Executes s t ∧
          (m.step t).result? = some ((m.withBudget n).run s)) ∧
        (m.withBudget n').run s = (m.withBudget n).run s)) ∧
    ∀ program table settings s₀ args k t value u,
      Machine.start program table settings = .ok (m, s₀) →
      Invocation.bindArguments s₀ args = .ok s →
      m.after k s = some t → m.step t = .exit value u →
      ∀ n, Machine.start program table { settings with budget := n } = .ok (m.withBudget n, s₀) ∧
        (k + 1 ≤ n.toNat → (m.withBudget n).run s = (.ok value, u)) ∧
        (n.toNat < k + 1 →
          ((m.withBudget n).run s).1 = .error (.fault (.stepLimitExceeded n))) := by
  constructor
  · intro n n' hle
    constructor
    · intro t ht
      refine ⟨run_of_stopsAtLimit ht, ?_, run_resume hle ht⟩
      rw [StopsAtLimit, reaches_withBudget] at ht
      exact after_eq_some_iff.mpr ⟨ht.1, by have := ht.2; dsimp only [withBudget] at this; omega⟩
    · exact run_eq_of_not_stopsAtLimit hle
  · intro program table settings s₀ args k t value u hm hs hk ht n
    have h0 := steps_of_start hm hs
    refine ⟨start_withBudget hm n, ?_, ?_⟩
    · intro hle
      exact run_of_exit hk ht (by omega)
    · intro hlt
      obtain ⟨v, hv⟩ := exists_stopsAtLimit (n := n) hk (by omega)
      rw [run_of_stopsAtLimit hv]
      rfl

def returning : Machine := ofCode #[mov64Imm 0 7, exit] .empty .empty

def returningState : State :=
  { State.initial .blank with regs := (Registers.initial stackTop).set 0 7, pc := 1, steps := 1 }

theorem run_withBudget_returning : ∃ s t u,
    Machine.start returning.program .empty {} = .ok (returning, s) ∧
    (returning.withBudget 1).run s = (.error (.fault (.stepLimitExceeded 1)), t) ∧
    (returning.withBudget 2).run t = (.ok 7, u) ∧ (returning.withBudget 2).run s = (.ok 7, u) := by
  obtain ⟨hbudgets, hfresh⟩ := run_withBudget returning (.initial .blank)
  have ht : (returning.withBudget 1).StopsAtLimit (.initial .blank) returningState :=
    ⟨.single rfl, rfl⟩
  obtain ⟨hrun, -, hresume⟩ := (hbudgets 1 2 (by decide)).1 _ ht
  have hs : Invocation.bindArguments (.initial .blank) [] = .ok (.initial .blank) := rfl
  have hend : returning.step returningState = .exit 7 returningState.fetched := rfl
  obtain ⟨-, hok, -⟩ := hfresh _ _ _ _ _ 1 _ _ _ start_ofCode hs rfl hend 2
  have hwhole := hok (by decide)
  exact ⟨_, _, _, start_ofCode, hrun, hresume.trans hwhole, hwhole⟩

end Machine

end Ebpf
