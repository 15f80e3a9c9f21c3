import Ebpf.Proofs.Machine.Access
import Ebpf.Proofs.Machine.Trap

/-! # What holds in every state of a machine

The host writes arguments and lets the machine run, and it may go on after the program exited or
trapped. In every state that it comes to, the counters are within their bounds, the frame pointer is
the one that the machine started with, and the context has the size that it was given. So no
addition of the machine overflows, and an instruction uses the places that exist or faults with one
that does not.
-/

namespace Ebpf

open Assembly

def Outcome.state : Outcome → State
  | next s | exit _ s | trap _ s => s

structure Effect.Changes (e : Effect) (m : Machine) (t u : State) : Prop where
  steps_eq : u.steps = t.steps
  pc : u.pc + 1 = t.pc + e.slots ∨ (∃ pc, .target pc ∈ e.accesses t.pc) ∧ u.pc ≤ m.code.size
  regs : ∀ reg, .write reg ∉ e.accesses t.pc ∨ reg = framePointer →
    u.regs.get? reg = t.regs.get? reg
  memory : (∀ addr len, .store addr len ∉ e.accesses t.pc) → u.memory = t.memory
  context_size : u.memory.context.size = t.memory.context.size

namespace Machine

variable {m : Machine} {s t s₀ : State} {i : Instruction} {settings : Settings}

/-- The states of a machine that starts in `s₀`. An argument that is refused changes nothing. -/
inductive Reachable (m : Machine) (s₀ : State) : State → Prop where
  | start : Reachable m s₀ s₀
  | setArgument {s t : State} {index : Nat} {value : UInt64} (h : Reachable m s₀ s)
      (ht : s.setArgument index value = .ok t) : Reachable m s₀ t
  | turn {s : State} (h : Reachable m s₀ s) : Reachable m s₀ (m.turn s).state

structure Invariant (m : Machine) (settings : Settings) (s : State) : Prop where
  code_le : m.code.size ≤ maxSlots
  pc_le : s.pc ≤ m.code.size
  frame : s.regs.get? framePointer = some (UInt64.ofNat (stackBase + stackSize))
  context_size : s.memory.context.size = settings.context.size
  context_le : settings.context.size ≤ maxContext
  steps_le : s.steps ≤ m.budget.toNat

/-- The sums that the machine forms fit their integers: the program counter a machine word, which
has 32 bits or more, the step counter 64 bits, and the target of a jump 64 bits with a sign. -/
structure Bounded (m : Machine) (s : State) : Prop where
  pc_lt : s.pc + 2 < UInt32.size
  steps_lt : s.steps < m.budget.toNat → s.steps + 1 < UInt64.size
  target_le : ∀ off : Int16, Int64.minValue.toInt ≤ s.pc + 1 + off.toInt ∧
    s.pc + 1 + off.toInt ≤ Int64.maxValue.toInt

/-- The instruction in state `s` uses no other places than those that are listed: what it does is
decided by what stands at the places that it reads, and nothing else is written. -/
structure Confined (m : Machine) (s : State) : Prop where
  effect : ∀ i answer, m.instruction? s = some i →
    (∀ place, .read place ∈ m.accesses s → answer place = m.answer s.pc s place) →
    (m.query i s.pc).eval answer = m.effect i s.pc s
  pc : (∀ pc, .target pc ∉ m.accesses s) → (m.step s).state.pc ≤ s.pc + 2
  regs : ∀ reg, .write reg ∉ m.accesses s → (m.step s).state.regs.get? reg = s.regs.get? reg
  memory : (∀ addr len, .store addr len ∉ m.accesses s) → (m.step s).state.memory = s.memory

/-! ### One instruction -/

theorem changes_none {e : Effect} (h : e.slots = 1) : e.Changes m t t :=
  ⟨rfl, Or.inl (congrArg (t.pc + ·) h.symm), fun _ _ => rfl, fun _ => rfl, rfl⟩

theorem changes_writeRegister {e : Effect} {pc : Nat} {reg : UInt8} {value : UInt64} (slots : Nat)
    (h : .write reg ∈ e.accesses t.pc) (hs : e.slots = slots + 1) :
    e.Changes m t (writeRegister { t with pc := t.pc + slots } pc reg value).state := by
  have hpc : t.pc + slots + 1 = t.pc + e.slots := by rw [hs, Nat.add_assoc]
  unfold writeRegister
  split
  · refine ⟨rfl, Or.inl hpc, ?_, fun _ => rfl, rfl⟩
    rintro other (hother | rfl)
    · refine t.regs.get?_set_of_ne ?_
      rintro rfl
      exact hother h
    · exact t.regs.get?_set_framePointer
  · exact ⟨rfl, Or.inl hpc, fun _ _ => rfl, fun _ => rfl, rfl⟩

theorem commit_changes (m : Machine) (t : State) (pc : Nat) (e : Effect) :
    e.Changes m t (m.commit t pc e).state := by
  cases e with
  | keep | exit value => exact changes_none rfl
  | write reg value => exact changes_writeRegister 0 (List.mem_singleton.mpr rfl) rfl
  | writeWide reg value => exact changes_writeRegister 1 (List.mem_singleton.mpr rfl) rfl
  | store addr len value =>
    rw [commit]
    split
    · refine ⟨rfl, Or.inl rfl, fun _ _ => rfl, fun h => ?_, Memory.size_context_write ..⟩
      exact absurd (List.mem_singleton.mpr rfl) (h addr len)
    · exact changes_none rfl
  | jump off =>
    rw [commit, jumpBy]
    split
    · exact changes_none rfl
    · refine ⟨rfl, Or.inr ⟨⟨_, List.mem_singleton.mpr rfl⟩, ?_⟩, fun _ _ => rfl, fun _ => rfl, rfl⟩
      simp only [Outcome.state]
      omega
  | call id helper args =>
    rw [commit, runHelper]
    split
    · split
      · rename_i hreturns
        refine changes_writeRegister 0 ?_ rfl
        rw [Effect.accesses, if_pos hreturns]
        exact List.mem_singleton.mpr rfl
      · exact changes_none rfl
    · exact changes_none rfl

theorem slots_le {e : Effect} (h : m.instruction? s = some i)
    (he : m.effect i s.pc s = .ok e) : s.pc + e.slots ≤ m.code.size := by
  have hpc := pc_lt_of_instruction? h
  cases e with
  | writeWide reg value =>
    obtain ⟨-, rfl⟩ := effect_ends.of_ok he
    obtain ⟨-, word, hw, -⟩ := acceptsWide_iff.mpr ⟨value, he⟩
    obtain ⟨hlt, -⟩ := Array.getElem?_eq_some_iff.mp hw
    exact hlt
  | _ => exact hpc

theorem slots_le_two (e : Effect) : e.slots ≤ 2 := by
  cases e with
  | writeWide reg value => exact Nat.le_refl 2
  | _ => exact Nat.le_succ 1

/-- A step fetches nothing, settles on no effect or carries its effect out. -/
theorem step_state (m : Machine) (s : State) :
    (m.instruction? s = none ∧ (m.step s).state = s) ∨
    (∃ i cause, m.instruction? s = some i ∧ m.effect i s.pc s = .error cause ∧
      (m.step s).state = s.fetched) ∨
    ∃ i e, m.instruction? s = some i ∧ m.effect i s.pc s = .ok e ∧
      e.Changes m s.fetched (m.step s).state := by
  cases hi : m.instruction? s with
  | none => exact Or.inl ⟨rfl, by rw [step_of_none hi]; rfl⟩
  | some i =>
    cases he : m.effect i s.pc s with
    | error cause => exact Or.inr (Or.inl ⟨i, cause, rfl, he, by rw [step_of_error hi he]; rfl⟩)
    | ok e =>
      refine Or.inr (Or.inr ⟨i, e, rfl, he, ?_⟩)
      rw [step_of_ok hi he]
      exact m.commit_changes _ _ e

theorem mem_accesses_of_effect {e : Effect} {a : Access} (h : m.instruction? s = some i)
    (he : m.effect i s.pc s = .ok e) (ha : a ∈ e.accesses (s.pc + 1)) : a ∈ m.accesses s := by
  rw [accesses, h]
  simp only [he]
  exact List.mem_cons_of_mem _ (List.mem_append_right _ ha)

theorem effect_eq_of_accesses {answer : Place → Except Fault UInt64}
    (hi : m.instruction? s = some i)
    (h : ∀ place, .read place ∈ m.accesses s → answer place = m.answer s.pc s place) :
    (m.query i s.pc).eval answer = m.effect i s.pc s :=
  Query.eval_eq_of_trace fun place hp => h place (mem_accesses_of_trace hi hp)

theorem confined (m : Machine) (s : State) : m.Confined s := by
  rcases m.step_state s with ⟨hi, hs⟩ | ⟨i, cause, hi, he, hs⟩ | ⟨i, e, hi, he, hc⟩
  · refine ⟨fun _ _ => effect_eq_of_accesses, ?_, ?_, ?_⟩ <;> simp [hs]
  · refine ⟨fun _ _ => effect_eq_of_accesses, ?_, ?_, ?_⟩ <;> simp [hs, State.fetched]
  · refine ⟨fun _ _ => effect_eq_of_accesses, fun h => ?_, fun reg h => ?_, fun h => ?_⟩
    · rcases hc.pc with hpc | ⟨⟨target, hmem⟩, -⟩
      · have hle := slots_le_two e
        have hpc : _ + 1 = s.pc + 1 + e.slots := hpc
        omega
      · exact absurd (mem_accesses_of_effect hi he hmem) (h target)
    · exact hc.regs reg (Or.inl fun hmem => h (mem_accesses_of_effect hi he hmem))
    · exact hc.memory fun addr len hmem => h addr len (mem_accesses_of_effect hi he hmem)

namespace Invariant

theorem start {program : Program} {table : HelperTable}
    (h : Machine.start program table settings = .ok (m, s)) : m.Invariant settings s := by
  obtain ⟨entry, memory, he, hm, rfl, rfl⟩ := start_eq_ok_iff.mp h
  have hcontext := Memory.context_of_withContext hm
  exact {
    code_le := Program.size_le_of_entry he
    pc_le := Nat.zero_le _
    frame := rfl
    context_size := congrArg Array.size hcontext
    context_le := hcontext ▸ memory.context_le
    steps_le := Nat.zero_le _ }

theorem setArgument {index : Nat} {value : UInt64} (h : m.Invariant settings s)
    (ht : s.setArgument index value = .ok t) : m.Invariant settings t := by
  unfold State.setArgument at ht
  split at ht
  · cases ht
    exact { h with frame := s.regs.get?_set_framePointer.trans h.frame }
  · cases ht

theorem step (h : m.Invariant settings s) (hlt : s.steps < m.budget.toNat) :
    m.Invariant settings (m.step s).state := by
  rcases m.step_state s with ⟨-, hs⟩ | ⟨i, cause, hi, -, hs⟩ | ⟨i, e, hi, he, hc⟩
  · rw [hs]
    exact h
  · rw [hs]
    exact { h with
      pc_le := pc_lt_of_instruction? hi
      steps_le := hlt }
  · exact { h with
      pc_le := by
        rcases hc.pc with hpc | ⟨-, hpc⟩
        · have hle := slots_le hi he
          have hpc : _ + 1 = s.pc + 1 + e.slots := hpc
          omega
        · exact hpc
      frame := (hc.regs _ (Or.inr rfl)).trans h.frame
      context_size := hc.context_size.trans h.context_size
      steps_le := Nat.le_trans (Nat.le_of_eq hc.steps_eq) hlt }

theorem turn (h : m.Invariant settings s) : m.Invariant settings (m.turn s).state := by
  by_cases hlt : s.steps < m.budget.toNat
  · rw [turn_of_lt hlt]
    exact h.step hlt
  · rw [Machine.turn, if_pos (Nat.le_of_not_lt hlt)]
    exact h

theorem bounded (h : m.Invariant settings s) : m.Bounded s where
  pc_lt := by
    have := h.code_le
    have := h.pc_le
    simp only [maxSlots, UInt32.size] at *
    omega
  steps_lt := by
    have := m.budget.toNat_lt
    simp only [UInt64.size]
    omega
  target_le off := by
    have hmin : Int64.minValue.toInt = -0x8000000000000000 := rfl
    have hmax : Int64.maxValue.toInt = 0x7fffffffffffffff := rfl
    have := h.code_le
    have := h.pc_le
    have := off.le_toInt
    have := off.toInt_lt
    simp only [maxSlots] at *
    omega

end Invariant

namespace Reachable

theorem invariant {program : Program} {table : HelperTable}
    (hm : Machine.start program table settings = .ok (m, s₀)) (h : m.Reachable s₀ s) :
    m.Invariant settings s := by
  induction h with
  | start => exact .start hm
  | setArgument h ht ih => exact ih.setArgument ht
  | turn h ih => exact ih.turn

theorem runFor {fuel : Nat} (h : m.Reachable s₀ s) (hf : s.steps + fuel ≤ m.budget.toNat) :
    m.Reachable s₀ (m.runFor fuel s).2 := by
  induction fuel generalizing s with
  | zero => exact h
  | succ fuel ih =>
    have ht := h.turn
    rw [turn_of_lt (by omega)] at ht
    rw [Machine.runFor]
    cases hs : m.step s with
    | next u =>
      rw [hs] at ht
      have hn : m.Next s u := hs
      exact ih ht (by have := hn.steps_eq; omega)
    | exit value u | trap cause u =>
      rw [hs] at ht
      exact ht

end Reachable

/-- In every state that the host gets a machine into, the counters are in range and so are the frame
pointer and the context. The next instruction cannot overflow a counter, and it uses a place that
exists or faults with the place. -/
theorem invariant_of_reachable {program : Program} {table : HelperTable}
    (hm : Machine.start program table settings = .ok (m, s₀)) (h : m.Reachable s₀ s) :
    m.Invariant settings s ∧ m.Bounded s ∧ m.Confined s ∧
    (s.steps < m.budget.toNat → ∀ a ∈ m.accesses s,
      a.InRange m s ∨ ∃ u, m.run s = (.error (.fault (a.fault s.pc)), u)) ∧
    m.Reachable s₀ (m.run s).2 := by
  have hinv := h.invariant hm
  refine ⟨hinv, hinv.bounded, m.confined s, ?_, ?_⟩
  · intro hlt a ha
    by_cases hin : a.InRange m s
    · exact Or.inl hin
    · obtain ⟨u, hu⟩ := step_of_not_inRange ha hin
      exact Or.inr ⟨u, run_of_trap ⟨.refl, hlt⟩ hu⟩
  · have := hinv.steps_le
    exact h.runFor (by omega)

def loading : Machine := ofCode #[ldx AccessSize.double.bits 0 1 0, exit] .empty .empty

theorem accesses_loading :
    loading.accesses (.initial .blank) =
    [.read (.slot 0), .read (.register 1), .read (.bytes 0 8)] := rfl

theorem invariant_of_reachable_loading : ∃ s t u,
    Machine.start loading.program .empty {} = .ok (loading, s) ∧
    Access.read (.bytes 0 8) ∈ loading.accesses s ∧
    loading.run s = (.error (.fault (.outOfBounds 0 8)), t) ∧
    State.setArgument t 0 stackTop = .ok u ∧ loading.Invariant {} (loading.run u).2 := by
  obtain ⟨-, -, -, hused, ht⟩ := invariant_of_reachable start_ofCode (m := loading) .start
  have hmem : Access.read (.bytes 0 8) ∈ loading.accesses (.initial .blank) := by
    rw [accesses_loading]
    exact List.mem_of_getElem? (i := 2) rfl
  rcases hused (by decide) _ hmem with ⟨region, start, h, -⟩ | ⟨t, hrun⟩
  · -- Both regions lie far above address 0.
    have hbase : 0 < region.base := by cases region <;> decide
    have h : 0 = region.base + start := h
    omega
  · rw [hrun] at ht
    have hset : t.setArgument 0 stackTop = .ok { t with regs := t.regs.set 1 stackTop } := rfl
    have hu := ht.setArgument hset
    obtain ⟨-, -, -, -, hagain⟩ := invariant_of_reachable start_ofCode hu
    obtain ⟨hinv, -⟩ := invariant_of_reachable start_ofCode hagain
    exact ⟨_, t, _, start_ofCode, hmem, hrun, hset, hinv⟩

end Machine

end Ebpf
