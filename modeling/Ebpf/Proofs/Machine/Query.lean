import Ebpf.Proofs.Failure
import Ebpf.Proofs.Machine.Registers
import Ebpf.Machine.Step

/-! # Evaluating queries

A query is evaluated place by place. It stops at the first place that has no answer, with the fault
that the place gives.
-/

namespace Ebpf

namespace Query

variable {α β : Type} {answer : Place → Except Fault UInt64} {place : Place} {value : UInt64}
  {next : UInt64 → Query α}

theorem eval_bind (q : Query α) (f : α → Query β) :
    (q >>= f).eval answer = q.eval answer >>= fun a => (f a).eval answer := by
  induction q with
  | done a => rfl
  | fail cause => rfl
  | ask place next ih =>
    change (ask place fun value => (next value).bind f).eval answer = _
    rw [eval, eval]
    cases answer place with
    | ok value => exact ih value
    | error f => rfl

theorem eval_fetch (place : Place) :
    (fetch place).eval answer = (answer place).mapError .fault := by
  rw [fetch, eval]
  cases answer place <;> rfl

theorem eval_fetch_bind_of_ok (h : answer place = .ok value) :
    (fetch place >>= next).eval answer = (next value).eval answer := by
  rw [eval_bind, eval_fetch, h]
  rfl

theorem eval_fetch_map (f : UInt64 → α) :
    (fetch place >>= fun value => pure (f value)).eval answer =
      ((answer place).map f).mapError .fault := by
  rw [eval_bind, eval_fetch]
  cases answer place <;> rfl

theorem eval_fetch_bind_eq_ok_iff {a : α} : (fetch place >>= next).eval answer = .ok a ↔
    ∃ value, answer place = .ok value ∧ (next value).eval answer = .ok a := by
  rw [eval_bind, bind_eq_ok_iff]
  simp only [eval_fetch, mapError_eq_ok_iff]

theorem eval_ofExcept (x : Except Trap α) : (ofExcept x).eval answer = x := by
  cases x <;> rfl

theorem eval_fetchAll {places : List Place} {values : List UInt64}
    (h : places.map answer = values.map .ok) : (fetchAll places).eval answer = .ok values := by
  induction places generalizing values with
  | nil => rw [List.map_eq_nil_iff.mp h.symm]; rfl
  | cons place places ih =>
    obtain ⟨value, values, rfl, hv, h⟩ := List.map_eq_cons_iff.mp h.symm
    rw [fetchAll, eval_fetch_bind_of_ok hv.symm, eval_bind, ih h.symm]
    rfl

theorem ends_bind {bad : Trap → Prop} {good : α → Prop} {better : β → Prop} {q : Query α}
    {f : α → Query β} (hq : Ends bad good (q.eval answer))
    (hf : ∀ a, good a → Ends bad better ((f a).eval answer)) :
    Ends bad better ((q >>= f).eval answer) := by
  rw [eval_bind]
  exact hq.bind hf

end Query

/-- The second operand, if it can be read. -/
def Instruction.operand (i : Instruction) (pc : Nat) (regs : Registers) : Except Fault UInt64 :=
  if i.usesSource then regs.read i.src pc else .ok i.immediate

namespace Machine

open Query

variable {m : Machine} {i : Instruction} {pc : Nat} {s : State} {reg : UInt8} {value : UInt64}

theorem answer_of_get? (h : s.regs.get? reg = some value) :
    m.answer pc s (.register reg) = .ok value := s.regs.read_of_get? h

theorem answer_slot_eq_ok_iff {slot : Nat} :
    m.answer pc s (.slot slot) = .ok value ↔ m.code[slot]? = some value := by
  rw [answer]
  cases m.code[slot]? <;> simp

theorem eval_operandQuery :
    i.operandQuery.eval (m.answer pc s) = (i.operand pc s.regs).mapError .fault := by
  unfold Instruction.operandQuery Instruction.operand
  split
  · exact eval_fetch _
  · rfl

theorem eval_operandQuery_bind {α : Type} {next : UInt64 → Query α}
    (h : i.operand pc s.regs = .ok value) :
    (i.operandQuery >>= next).eval (m.answer pc s) = (next value).eval (m.answer pc s) := by
  rw [eval_bind, eval_operandQuery, h]
  rfl

end Machine

end Ebpf
