import Ebpf.Instruction.Assembly
import Ebpf.Proofs.Machine.Registers
import Ebpf.Proofs.Machine.Run
import Ebpf.Proofs.Machine.Start

/-! # Helper calls

The machine calls a helper where a call instruction names one that is registered with the declared
signature, and hands it the argument registers. The helper can change R0 and nothing else. A run
depends on the helpers only through the results of these calls.
-/

namespace Ebpf

open Assembly

def HelperTable.SameSignatures (table other : HelperTable) : Prop :=
  ∀ id, (table.get? id).map (·.signature) = (other.get? id).map (·.signature)

theorem Fault.raisedBy_of_ne {f : Fault} {id : UInt32}
    (h : ∀ other reason, f ≠ .helperFailed other reason) : f.raisedBy id = f := by
  cases f with
  | helperFailed other reason => exact absurd rfl (h other reason)
  | _ => rfl

theorem Program.declaredSignature_eq_some_iff {program : Program} {id : UInt32}
    {signature : Signature} : program.declaredSignature id = some signature ↔
    (∃ d, program.imports.get? id = some d ∧ d.signature = signature) ∨
      program.imports.get? id = none ∧ ∃ w, WellKnown.byId? id = some w ∧
        w.signature = signature := by
  unfold declaredSignature
  cases program.imports.get? id with
  | some d => simp
  | none => simp

namespace HelperCall

/-- What the machine checks before it makes call `c` in state `s`. A declaration of the program
comes before the well-known registry. -/
structure Authorised (m : Machine) (s : State) (c : HelperCall) : Prop where
  instruction : ∃ i, m.instruction? s = some i ∧ i.IsCall ∧ i.src = 0 ∧ c.id = i.helperId
  registered : m.table.get? c.id = some c.helper
  declared : ∀ d, m.program.imports.get? c.id = some d → d.signature = c.helper.signature
  wellKnown : m.program.imports.get? c.id = none →
    ∀ w, WellKnown.byId? c.id = some w → w.signature = c.helper.signature
  args : c.args.map some =
    (List.range c.helper.signature.arity).map fun k => s.regs.get? (.ofNat (k + 1))

/-- What call `c` leaves of state `s` when it returns `value`. -/
structure Leaves (c : HelperCall) (value : UInt64) (s u : State) : Prop where
  pc : u.pc = s.pc + 1
  memory : u.memory = s.memory
  result : u.regs.get? 0 = if c.helper.signature.returns then some value else s.regs.get? 0
  registers : ∀ reg, reg ≠ 0 → u.regs.get? reg = s.regs.get? reg

end HelperCall

namespace Machine

variable {m : Machine} {s t u : State} {c : HelperCall} {i : Instruction} {table : HelperTable}

theorem helperCall?_iff_callee : m.helperCall? s = some c ↔ ∃ i, m.instruction? s = some i ∧
    i.IsCall ∧ i.src = 0 ∧ c.id = i.helperId ∧ m.callee c.id = .ok c.helper ∧
      c.args = s.regs.arguments c.helper.signature.arity := by
  rw [helperCall?_eq_some_iff]
  constructor
  · rintro ⟨i, hi, he⟩
    exact ⟨i, hi, effect_ends.of_ok he⟩
  · rintro ⟨i, hi, hc, hsrc, hid, hcallee, hargs⟩
    refine ⟨i, hi, ?_⟩
    rw [hid] at hcallee
    rw [effect_of_isCall_eq_ok_iff hc]
    exact ⟨hsrc, c.helper, hcallee, by rw [hid, hargs]⟩

theorem callee_eq_ok_iff_declarations {id : UInt32} {helper : Helper} :
    m.callee id = .ok helper ↔ m.table.get? id = some helper ∧
      (∀ d, m.program.imports.get? id = some d → d.signature = helper.signature) ∧
      (m.program.imports.get? id = none →
        ∀ w, WellKnown.byId? id = some w → w.signature = helper.signature) := by
  rw [callee_eq_ok_iff]
  apply and_congr_right
  intro _
  constructor
  · intro h
    constructor
    · intro d hd
      exact h _ (Program.declaredSignature_eq_some_iff.mpr (Or.inl ⟨d, hd, rfl⟩))
    · intro hn w hw
      exact h _ (Program.declaredSignature_eq_some_iff.mpr (Or.inr ⟨hn, w, hw, rfl⟩))
  · rintro ⟨hd, hw⟩ declared h
    rcases Program.declaredSignature_eq_some_iff.mp h with ⟨d, hmem, rfl⟩ | ⟨hn, w, hmem, rfl⟩
    · exact hd d hmem
    · exact hw hn w hmem

theorem args_eq_iff : c.args = s.regs.arguments c.helper.signature.arity ↔
    c.args.map some =
      (List.range c.helper.signature.arity).map fun k => s.regs.get? (.ofNat (k + 1)) := by
  rw [← s.regs.map_some_arguments c.helper.signature.arity_le]
  exact (List.map_inj_right fun _ _ => Option.some.inj).symm

theorem helperCall?_iff_authorised : m.helperCall? s = some c ↔ c.Authorised m s := by
  rw [helperCall?_iff_callee]
  constructor
  · rintro ⟨i, hi, hc, hsrc, hid, hcallee, hargs⟩
    obtain ⟨hreg, hd, hw⟩ := callee_eq_ok_iff_declarations.mp hcallee
    exact ⟨⟨i, hi, hc, hsrc, hid⟩, hreg, hd, hw, args_eq_iff.mp hargs⟩
  · rintro ⟨⟨i, hi, hc, hsrc, hid⟩, hreg, hd, hw, hargs⟩
    exact ⟨i, hi, hc, hsrc, hid, callee_eq_ok_iff_declarations.mpr ⟨hreg, hd, hw⟩,
      args_eq_iff.mpr hargs⟩

theorem next_of_result_ok {value : UInt64} (h : m.helperCall? s = some c)
    (hr : c.result = .ok value) : ∃ u, m.Next s u ∧ c.Leaves value s u := by
  have hs := step_of_helperCall? h
  rw [hr] at hs
  refine ⟨_, hs, rfl, rfl, ?_, ?_⟩
  · dsimp only
    split
    · exact Registers.get?_set_self _ (by decide)
    · rfl
  · intro reg hreg
    dsimp only
    split
    · rw [Registers.get?_set _ (by decide), if_neg hreg]
    · rfl

theorem run_of_result_error {f : Fault} (ht : m.Executes s t) (h : m.helperCall? t = some c)
    (hr : c.result = .error f) :
    m.run s = (.error (.fault (f.raisedBy c.id)), t.fetched) := by
  apply run_of_trap ht
  rw [step_of_helperCall? h, hr]

/-- Another table gives the result that the call made in state `s`, if there is one, has. -/
def AgreesOnCall (m : Machine) (table : HelperTable) (s : State) : Prop :=
  ∀ c, m.helperCall? s = some c → ∀ helper, table.get? c.id = some helper →
    helper.call c.args = c.result

theorem callee_congr (h : table.SameSignatures m.table) (id : UInt32) :
    ({ m with table }.callee id).map Helper.signature = (m.callee id).map Helper.signature := by
  have hid := h id
  simp only [callee]
  cases hn : table.get? id with
  | none =>
    rw [hn] at hid
    rw [Option.map_eq_none_iff.mp hid.symm]
  | some helper =>
    rw [hn] at hid
    obtain ⟨other, ho, hs⟩ := Option.map_eq_some_iff.mp hid.symm
    rw [ho]
    dsimp only
    rw [hs]
    split
    · exact congrArg Except.ok hs.symm
    · split
      · exact congrArg Except.ok hs.symm
      · rfl

theorem called_error_congr (h : table.SameSignatures m.table) {pc : Nat} {cause : Trap}
    (he : m.called i pc = .error cause) : { m with table }.called i pc = .error cause := by
  have hc := callee_congr h i.helperId
  unfold called at he ⊢
  split at he
  · rename_i hsrc
    rw [if_pos hsrc]
    exact he
  · rename_i hsrc
    rw [if_neg hsrc]
    rw [he] at hc
    cases hn : { m with table }.callee i.helperId with
    | ok helper =>
      rw [hn] at hc
      cases hc
    | error other =>
      rw [hn] at hc
      cases hc
      rfl

theorem effect_congr (h : table.SameSignatures m.table) {pc : Nat}
    (hn : ∀ id helper args, m.effect i pc s ≠ .ok (.call id helper args)) :
    { m with table }.effect i pc s = m.effect i pc s := by
  by_cases hc : i.IsCall
  · cases he : m.effect i pc s with
    | ok e =>
      obtain ⟨-, helper, -, rfl⟩ := (effect_of_isCall_eq_ok_iff hc).mp he
      exact absurd he (hn _ _ _)
    | error cause =>
      rw [effect_of_isCall_eq_error_iff hc] at he ⊢
      exact called_error_congr h he
  · exact effect_eq_of_not_isCall (by rfl) hc pc

theorem helperCall?_congr (h : table.SameSignatures m.table) (hc : m.helperCall? s = some c) :
    ∃ helper, table.get? c.id = some helper ∧ helper.signature = c.helper.signature ∧
      { m with table }.helperCall? s = some { c with helper } := by
  obtain ⟨hi, hreg, hd, hw, hargs⟩ := helperCall?_iff_authorised.mp hc
  have hid := h c.id
  rw [hreg] at hid
  obtain ⟨helper, hh, hs⟩ := Option.map_eq_some_iff.mp hid
  refine ⟨helper, hh, hs, helperCall?_iff_authorised.mpr ⟨hi, hh, ?_, ?_, ?_⟩⟩
  · intro d hm
    exact (hd d hm).trans hs.symm
  · intro hn w hm
    exact (hw hn w hm).trans hs.symm
  · dsimp only
    rw [hs]
    exact hargs

/-- A step depends on the helpers only through the result of the call that it makes. -/
theorem step_congr (h : table.SameSignatures m.table) (ha : m.AgreesOnCall table s) :
    { m with table }.step s = m.step s := by
  cases hc : m.helperCall? s with
  | some c =>
    obtain ⟨helper, hh, hs, hc'⟩ := helperCall?_congr h hc
    rw [step_of_helperCall? hc, step_of_helperCall? hc', ← ha c hc helper hh]
    dsimp only [HelperCall.result]
    rw [hs]
  | none =>
    cases hi : m.instruction? s with
    | none =>
      rw [step_of_none hi]
      exact step_of_none hi
    | some i =>
      have heffect : { m with table }.effect i s.pc s = m.effect i s.pc s := by
        apply effect_congr h
        intro id helper args he
        have := helperCall?_eq_some_iff (c := ⟨id, helper, args⟩).mpr ⟨i, hi, he⟩
        rw [hc] at this
        cases this
      cases he : m.effect i s.pc s with
      | error cause =>
        rw [step_of_error hi he]
        exact step_of_error hi (heffect.trans he)
      | ok e =>
        rw [step_of_ok hi he]
        exact step_of_ok hi (heffect.trans he)

theorem runFor_congr (h : table.SameSignatures m.table) (fuel : Nat)
    (ha : ∀ u, m.Reaches s u → u.steps < s.steps + fuel → m.AgreesOnCall table u) :
    { m with table }.runFor fuel s = m.runFor fuel s := by
  induction fuel generalizing s with
  | zero => rfl
  | succ fuel ih =>
    have hstep := step_congr h (ha s .refl (by omega))
    rw [runFor, runFor, hstep]
    cases hs : m.step s with
    | next v =>
      have hn : m.Next s v := hs
      have hsteps := hn.steps_eq
      apply ih
      intro u hr hu
      exact ha u (.head hn hr) (by omega)
    | exit value v => rfl
    | trap cause v => rfl

theorem run_congr (h : table.SameSignatures m.table)
    (ha : ∀ u, m.Executes s u → m.AgreesOnCall table u) :
    { m with table }.run s = m.run s := by
  apply runFor_congr h
  intro u hr hu
  have hle := hr.steps_le
  dsimp only at hu
  exact ha u ⟨hr, by omega⟩

/-- A run makes the authorised calls and no others. A helper that returns can set R0 and nothing
else. A helper that fails ends the run with its error, which carries the identifier of the call if
it is a failure of the helper itself. -/
theorem Executes.helperCall (ht : m.Executes s t) :
    (∀ c, m.helperCall? t = some c ↔ c.Authorised m t) ∧
    (∀ c value, m.helperCall? t = some c → c.result = .ok value →
      ∃ u, m.Next t u ∧ c.Leaves value t u) ∧
    (∀ c id reason, m.helperCall? t = some c → c.result = .error (.helperFailed id reason) →
      ∃ u, m.run s = (.error (.fault (.helperFailed c.id reason)), u) ∧
        u.regs = t.regs ∧ u.memory = t.memory) ∧
    (∀ c f, m.helperCall? t = some c → c.result = .error f →
      (∀ id reason, f ≠ .helperFailed id reason) →
      ∃ u, m.run s = (.error (.fault f), u) ∧ u.regs = t.regs ∧ u.memory = t.memory) ∧
    ∀ table : HelperTable, table.SameSignatures m.table →
      (∀ u, m.Executes s u → m.AgreesOnCall table u) → { m with table }.run s = m.run s := by
  refine ⟨?_, ?_, ?_, ?_, ?_⟩
  · intro c
    exact helperCall?_iff_authorised
  · intro c value hc hr
    exact next_of_result_ok hc hr
  · intro c id reason hc hr
    exact ⟨t.fetched, run_of_result_error ht hc hr, rfl, rfl⟩
  · intro c f hc hr hf
    refine ⟨t.fetched, ?_, rfl, rfl⟩
    rw [run_of_result_error ht hc hr, Fault.raisedBy_of_ne hf]
  · intro table hs ha
    exact run_congr hs ha

def increment : Helper :=
  ⟨"increment", ⟨1, true, one_le_maxArguments⟩, fun args => .ok (args.foldl (· + ·) 1)⟩

def incrementing : Machine :=
  ofCode #[mov64Imm 1 10, call 300, exit] .empty ⟨[(300, increment)], by decide⟩

def incrementingState : State :=
  { State.initial .blank with regs := (Registers.initial stackTop).set 1 10, pc := 1, steps := 1 }

/-- A helper that fails with `f`, whatever it is called with. -/
def brokenTable (f : Fault) : HelperTable :=
  ⟨[(300, ⟨"broken", .constant, fun _ => .error f⟩)], List.pairwise_singleton _ _⟩

def callingBroken (f : Fault) : Machine := ofCode #[call 300, exit] .empty (brokenTable f)

theorem helperCall_incrementing :
    (∃ (s t u : State) (c : HelperCall),
      Machine.start incrementing.program incrementing.table {} = .ok (incrementing, s) ∧
        incrementing.Executes s t ∧ c.Authorised incrementing t ∧ c.args = [10] ∧
        incrementing.Next t u ∧ c.Leaves 11 t u) ∧
    (∃ u, (callingBroken (.helperFailed 0 "device busy")).run (.initial .blank) =
      (.error (.fault (.helperFailed 300 "device busy")), u) ∧
        u.regs = .initial stackTop ∧ u.memory = .blank) ∧
    ∃ u, (callingBroken (.divisionByZero 7)).run (.initial .blank) =
      (.error (.fault (.divisionByZero 7)), u) ∧
        u.regs = .initial stackTop ∧ u.memory = .blank := by
  refine ⟨?_, ?_, ?_⟩
  · have ht : incrementing.Executes (.initial .blank) incrementingState :=
      ⟨.single rfl, by decide⟩
    have hc : incrementing.helperCall? incrementingState = some ⟨300, increment, [10]⟩ := rfl
    obtain ⟨hcalls, hok, -⟩ := Executes.helperCall ht
    obtain ⟨u, hu, hl⟩ := hok _ 11 hc rfl
    exact ⟨_, _, u, _, start_ofCode, ht, (hcalls _).mp hc, rfl, hu, hl⟩
  · obtain ⟨-, -, hfailed, -⟩ := Executes.helperCall
      (m := callingBroken (.helperFailed 0 "device busy")) (s := .initial .blank)
      ⟨.refl, by decide⟩
    exact hfailed ⟨300, _, []⟩ 0 _ rfl rfl
  · obtain ⟨-, -, -, hother, -⟩ := Executes.helperCall
      (m := callingBroken (.divisionByZero 7)) (s := .initial .blank) ⟨.refl, by decide⟩
    exact hother ⟨300, _, []⟩ _ rfl rfl nofun

end Machine

end Ebpf
