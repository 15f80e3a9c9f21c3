import Ebpf.Proofs.Invoke
import Ebpf.Proofs.Machine.Culprit

/-! # Faults and where they come from

A fault of a run is raised by a step that calls no helper, or it is what a helper that fails hands
to the machine. The machine puts the identifier of the call into a failure that a helper reports
about itself, and passes any other error of a helper on as if the program had raised it.
-/

namespace Ebpf

open Assembly

def Fault.IsHelperFailure (f : Fault) : Prop := ∃ id reason, f = .helperFailed id reason

theorem Fault.raisedBy_eq_helperFailed_iff (g : Fault) (id : UInt32) :
    (∃ reason, g.raisedBy id = .helperFailed id reason) ↔ g.IsHelperFailure := by
  constructor
  · rintro ⟨reason, h⟩
    cases g <;> cases h
    exact ⟨_, _, rfl⟩
  · rintro ⟨other, reason, rfl⟩
    exact ⟨reason, rfl⟩

namespace Machine

variable {m : Machine} {s t u : State} {cause : Trap} {f g : Fault} {c : HelperCall} {fuel : Nat}

/-- What gives the run from `s` its fault: a turn that calls no helper, in a state that confirms the
fault, or a helper that fails. -/
inductive Origin (m : Machine) (s : State) : Fault → Prop
  | program {t u : State} {f : Fault} (hr : m.Reaches s t) (ht : m.turn t = .trap (.fault f) u)
      (hf : m.Confirms t f) (hnone : t.steps < m.budget.toNat → m.helperCall? t = none) :
      Origin m s f
  | helper {c : HelperCall} {g : Fault} (hc : c ∈ m.helperCalls s) (hg : c.result = .error g) :
      Origin m s (g.raisedBy c.id)

theorem runFor_of_reaches_limit (hr : m.Reaches s t) (h : s.steps + fuel ≤ t.steps) :
    (m.runFor fuel s).1 = .error (.fault (.stepLimitExceeded m.budget)) := by
  induction fuel generalizing s with
  | zero => rfl
  | succ fuel ih =>
    rcases Relation.ReflTransGen.cases_head hr with rfl | ⟨v, hn, hr⟩
    · omega
    · have hs := hn.steps_eq
      rw [runFor, show m.step s = .next v from hn]
      exact ih hr (by omega)

theorem run_of_turn (hr : m.Reaches s t) (ht : m.turn t = .trap cause u) :
    (m.run s).1 = .error cause := by
  by_cases hlt : t.steps < m.budget.toNat
  · rw [turn_of_lt hlt] at ht
    rw [run_of_trap ⟨hr, hlt⟩ ht]
  · have hle := hr.steps_le
    rw [turn, if_pos (Nat.le_of_not_lt hlt)] at ht
    cases ht
    exact runFor_of_reaches_limit hr (by omega)

theorem run_of_mem_helperCalls (hc : c ∈ m.helperCalls s) (hg : c.result = .error g) :
    (m.run s).1 = .error (.fault (g.raisedBy c.id)) := by
  obtain ⟨t, ht, hcall⟩ := mem_helperCalls_iff.mp hc
  rw [run_of_result_error ht hcall hg]

theorem result_of_step_trap (h : m.helperCall? t = some c) (ht : m.step t = .trap (.fault f) u) :
    ∃ g, c.result = .error g ∧ f = g.raisedBy c.id := by
  rw [step_of_helperCall? h] at ht
  split at ht
  · cases ht
  · rename_i g hg
    cases ht
    exact ⟨g, hg, rfl⟩

theorem origin_of_run (h : (m.run s).1 = .error (.fault f)) : m.Origin s f := by
  obtain ⟨t, hr, ht⟩ := run_error_turn (u := (m.run s).2) (Prod.ext h rfl)
  by_cases hcall : ∃ c, t.steps < m.budget.toNat ∧ m.helperCall? t = some c
  · obtain ⟨c, hlt, hc⟩ := hcall
    rw [turn_of_lt hlt] at ht
    obtain ⟨g, hg, rfl⟩ := result_of_step_trap hc ht
    exact .helper (mem_helperCalls_iff.mpr ⟨t, ⟨hr, hlt⟩, hc⟩) hg
  · rcases confirms_of_turn ht with hf | ⟨c, g, hlt, hc, -⟩
    · refine .program hr ht hf fun hlt => ?_
      apply Option.eq_none_iff_forall_ne_some.mpr
      intro c hc
      exact hcall ⟨c, hlt, hc⟩
    · exact absurd ⟨c, hlt, hc⟩ hcall

theorem run_fault_iff_origin : (m.run s).1 = .error (.fault f) ↔ m.Origin s f := by
  constructor
  · exact origin_of_run
  · intro h
    cases h with
    | program hr ht => exact run_of_turn hr ht
    | helper hc hg => exact run_of_mem_helperCalls hc hg

end Machine

theorem Invocation.invoke_of_mem_helperCalls {program : Program} {table : HelperTable}
    {settings : Settings} {args : List UInt64} {c : HelperCall} {g : Fault}
    (hc : c ∈ helperCalls program args table settings) (hg : c.result = .error g) :
    invoke program args table settings = .error (.fault (g.raisedBy c.id)) := by
  obtain ⟨outcome, calls, h⟩ := exists_answers program table settings args
  obtain ⟨houtcome, hcalls⟩ := h.eq
  rw [← hcalls] at hc
  rw [← houtcome]
  cases h with
  | interpreted =>
    rw [Machine.run_of_mem_helperCalls hc hg]
    rfl
  | _ => cases hc

namespace Machine

/-- A fault of a run is the program's own, or it is what a helper that fails leaves. Every helper
that fails is reported as such, under the identifier it is called by, exactly if no helper fails
with an error of another kind. -/
theorem fault_attribution (m : Machine) (s : State) :
    (∀ f, (m.run s).1 = .error (.fault f) ↔ m.Origin s f) ∧
    ((∀ c ∈ m.helperCalls s, ∀ g, c.result = .error g →
        ∃ reason, (m.run s).1 = .error (.fault (.helperFailed c.id reason))) ↔
      ∀ c ∈ m.helperCalls s, ∀ g, c.result = .error g → g.IsHelperFailure) ∧
    ∀ program table settings args, ∀ c ∈ Invocation.helperCalls program args table settings,
      ∀ g, c.result = .error g →
        invoke program args table settings = .error (.fault (g.raisedBy c.id)) := by
  refine ⟨fun _ => run_fault_iff_origin, ?_, ?_⟩
  · apply forall₄_congr
    intro c hc g hg
    rw [run_of_mem_helperCalls hc hg, ← g.raisedBy_eq_helperFailed_iff c.id]
    simp
  · intro program table settings args c hc g hg
    exact Invocation.invoke_of_mem_helperCalls hc hg

theorem fault_attribution_busy :
    ((callingBroken (.helperFailed 0 "device busy")).run (.initial .blank)).1 =
      .error (.fault (.helperFailed 300 "device busy")) ∧
    ¬ ∀ c ∈ (callingBroken (.divisionByZero 7)).helperCalls (.initial .blank),
      ∀ g, c.result = .error g → ∃ reason,
        ((callingBroken (.divisionByZero 7)).run (.initial .blank)).1 =
          .error (.fault (.helperFailed c.id reason)) := by
  obtain ⟨horigin, -⟩ :=
    fault_attribution (callingBroken (.helperFailed 0 "device busy")) (.initial .blank)
  obtain ⟨-, hreported, -⟩ :=
    fault_attribution (callingBroken (.divisionByZero 7)) (.initial .blank)
  constructor
  · have h : (callingBroken (.helperFailed 0 "device busy")).Origin (.initial .blank) _ :=
      .helper (.head _) rfl
    exact (horigin _).mpr h
  · intro h
    obtain ⟨id, reason, heq⟩ := hreported.mp h _ (.head _) _ rfl
    cases heq

/-- The division by zero of a helper is reported as one of the program. -/
theorem invoke_callingBroken_divisionByZero :
    ∃ (m : Machine) (c : HelperCall), m = callingBroken (.divisionByZero 7) ∧
      c ∈ Invocation.helperCalls m.program [] m.table {} ∧ c.id = 300 ∧
      c.result = .error (.divisionByZero 7) ∧
      invoke m.program [] m.table {} = .error (.fault (.divisionByZero 7)) ∧
      ∀ reason, invoke m.program [] m.table {} ≠ .error (.fault (.helperFailed 300 reason)) := by
  refine ⟨_, ⟨300, ⟨"broken", .constant, fun _ => .error (.divisionByZero 7)⟩, []⟩, rfl, .head _,
    rfl, rfl, rfl, ?_⟩
  intro reason h
  cases h

end Machine

end Ebpf
