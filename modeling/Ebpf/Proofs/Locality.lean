import Ebpf.Instruction.Assembly
import Ebpf.Proofs.Invoke
import Ebpf.Proofs.Link
import Ebpf.Proofs.Machine.HelperCall
import Ebpf.Proofs.Scan

/-! # What an invocation depends on

The only identifiers that are ever looked up in the program and in the helper table are the ones
that call instructions of the entry code name. So two programs with the same entry code are invoked
with the same outcome if they and their tables agree on these identifiers, whatever else they
contain.
-/

namespace Ebpf

open Assembly

/-- Everything about a helper but its name, which is only reported. -/
def Helper.behaviour (h : Helper) : Signature × (List UInt64 → Except Fault UInt64) :=
  (h.signature, h.call)

/-- A slot of the code holds a call instruction whose immediate is `id`, be it reached or not. -/
def Names (code : Array UInt64) (id : UInt32) : Prop :=
  ∃ word ∈ code, ((Instruction.decode word).opcode = opCall ∨
    (Instruction.decode word).opcode = opCallSource) ∧ (Instruction.decode word).helperId = id

/-- The programs declare, and the tables register, the same for each identifier that the code
names. -/
structure AgreeOn (code : Array UInt64) (program program' : Program)
    (table table' : HelperTable) : Prop where
  declared : ∀ id, Names code id → program'.declaredSignature id = program.declaredSignature id
  registered : ∀ id, Names code id →
    (table'.get? id).map Helper.behaviour = (table.get? id).map Helper.behaviour

variable {program program' : Program} {table table' : HelperTable} {code : Array UInt64}
  {id : UInt32}

theorem AgreeOn.get?_cases (h : AgreeOn code program program' table table') (hid : Names code id) :
    (table.get? id = none ∧ table'.get? id = none) ∨
      ∃ helper helper', table.get? id = some helper ∧ table'.get? id = some helper' ∧
        helper'.signature = helper.signature ∧ helper'.call = helper.call := by
  have hr := h.registered id hid
  cases ht : table.get? id with
  | none =>
    rw [ht] at hr
    exact Or.inl ⟨rfl, Option.map_eq_none_iff.mp hr⟩
  | some helper =>
    rw [ht] at hr
    obtain ⟨helper', ht', hb⟩ := Option.map_eq_some_iff.mp hr
    obtain ⟨hs, hc⟩ := Prod.mk.inj hb
    exact Or.inr ⟨helper, helper', rfl, ht', hs, hc⟩

/-! ### Links -/

theorem CallSite.link_congr {site : CallSite} (h : AgreeOn code program program' table table')
    (hid : Names code site.id) : (site.link program' table').map (fun _ => ())
      = (site.link program table).map fun _ => () := by
  unfold CallSite.link
  split
  · rfl
  · rw [h.declared _ hid]
    rcases h.get?_cases hid with ⟨ht, ht'⟩ | ⟨helper, helper', ht, ht', hs, -⟩
    · rw [ht, ht']
    · rw [ht, ht']
      dsimp only
      rw [hs]
      split <;> rfl

theorem names_of_mem_callSites {f : Function} {site : CallSite} (h : site ∈ f.callSites) :
    Names f.code site.id := by
  obtain ⟨word, -, hw, hop, hsite⟩ := Function.mem_callSites_iff.mp h
  exact ⟨word, Array.mem_of_getElem? hw, Or.inl hop, congrArg CallSite.id hsite⟩

theorem link_congr {entry entry' : Function} (he : program.entry = .ok entry)
    (he' : program'.entry = .ok entry') (hcode : entry'.code = entry.code)
    (h : AgreeOn entry.code program program' table table') :
    (link program' table').map (fun _ => ()) = (link program table).map fun _ => () := by
  have hsites : entry'.callSites = entry.callSites := by
    rw [Function.callSites, hcode]
    rfl
  have hcalls := mapM_congr_unit fun site (hsite : site ∈ entry.callSites) =>
    CallSite.link_congr h (names_of_mem_callSites hsite)
  rcases map_eq_map_cases hcalls with ⟨cause, hc', hc⟩ | ⟨_, _, hc', hc, -⟩
  · rw [link_of_entry he, link_of_entry he', hsites, hc, hc']
    rfl
  · rw [link_of_entry he, link_of_entry he', hsites, hc, hc']
    rfl

/-! ### Runs -/

namespace Machine

variable {m m' : Machine} {s : State} {i : Instruction}

theorem names_of_isCall (hi : m.instruction? s = some i) (hc : i.IsCall) :
    Names m.code i.helperId := by
  obtain ⟨word, hw, rfl⟩ := instruction?_eq_some_iff.mp hi
  exact ⟨word, Array.mem_of_getElem? hw, (Instruction.isCall_iff_opcode _).mp hc, rfl⟩

theorem callee_behaviour (h : AgreeOn code m.program m'.program m.table m'.table)
    (hid : Names code id) :
    (m'.callee id).map Helper.behaviour = (m.callee id).map Helper.behaviour := by
  unfold callee
  rw [h.declared id hid]
  rcases h.get?_cases hid with ⟨ht, ht'⟩ | ⟨helper, helper', ht, ht', hs, hc⟩
  · rw [ht, ht']
  · have hb : helper'.behaviour = helper.behaviour := Prod.ext hs hc
    rw [ht, ht']
    dsimp only
    rw [hs]
    split
    · exact congrArg Except.ok hb
    · split
      · exact congrArg Except.ok hb
      · rfl

theorem runHelper_congr {helper helper' : Helper} (h : helper'.behaviour = helper.behaviour)
    (t : State) (pc : Nat) (args : List UInt64) :
    runHelper t pc id helper' args = runHelper t pc id helper args := by
  obtain ⟨hs, hc⟩ := Prod.mk.inj h
  unfold runHelper
  rw [hs, hc]

theorem commit_congr (hcode : m'.code = m.code) (t : State) (pc : Nat) (e : Effect) :
    m'.commit t pc e = m.commit t pc e := by
  cases e with
  | jump off => rw [commit, commit, jumpBy, jumpBy, hcode]
  | _ => rfl

theorem step_of_isCall (hi : m.instruction? s = some i) (hc : i.IsCall) :
    m.step s = if i.src = 0 then
        match m.callee i.helperId with
        | .ok helper => runHelper s.fetched s.pc i.helperId helper
            (s.regs.arguments helper.signature.arity)
        | .error cause => .trap cause s.fetched
      else .trap (.fault (.unsupportedCall s.pc)) s.fetched := by
  have he : m.effect i s.pc s = _ := effect_of_isCall hc
  by_cases hsrc : i.src = 0
  · rw [called_of_src_eq_zero hsrc] at he
    rw [if_pos hsrc]
    cases hh : m.callee i.helperId with
    | error cause =>
      rw [hh] at he
      exact step_of_error hi he
    | ok helper =>
      rw [hh] at he
      exact step_of_ok hi he
  · rw [called_of_src_ne_zero hsrc] at he
    rw [if_neg hsrc]
    exact step_of_error hi he

/-- A call looks up the identifier that it names, and no other instruction looks anything up. -/
theorem step_eq_of_agreeOn (hcode : m'.code = m.code)
    (h : AgreeOn m.code m.program m'.program m.table m'.table) (s : State) :
    m'.step s = m.step s := by
  have hsame : m'.instruction? s = m.instruction? s := by rw [instruction?, hcode]; rfl
  cases hi : m.instruction? s with
  | none => rw [step_of_none hi, step_of_none (hsame.trans hi)]
  | some i =>
    have hi' := hsame.trans hi
    by_cases hc : i.IsCall
    · -- The helpers may differ in their names, so the effects may differ, but not what they do.
      have hcallee := callee_behaviour h (names_of_isCall hi hc)
      rw [step_of_isCall hi hc, step_of_isCall hi' hc]
      rcases map_eq_map_cases hcallee with ⟨cause, hm', hm⟩ | ⟨helper', helper, hm', hm, hb⟩
      · rw [hm, hm']
      · rw [hm, hm']
        dsimp only
        rw [(Prod.mk.inj hb).1, runHelper_congr hb]
    · have heffect := effect_eq_of_not_isCall (s := s) hcode hc s.pc
      cases he : m.effect i s.pc s with
      | error cause => rw [step_of_error hi he, step_of_error hi' (heffect.trans he)]
      | ok e =>
        rw [step_of_ok hi he, step_of_ok hi' (heffect.trans he), commit_congr hcode]

theorem run_eq_of_agreeOn (hcode : m'.code = m.code) (hbudget : m'.budget = m.budget)
    (h : AgreeOn m.code m.program m'.program m.table m'.table) (s : State) :
    m'.run s = m.run s := by
  rw [run, run, hbudget]
  generalize m.budget.toNat - s.steps = fuel
  induction fuel generalizing s with
  | zero => rw [runFor, runFor, hbudget]
  | succ fuel ih =>
    rw [runFor, runFor, step_eq_of_agreeOn hcode h]
    cases m.step s with
    | next u => exact ih u
    | exit value u => rfl
    | trap cause u => rfl

end Machine

/-! ### Invocations -/

/-- Two programs with the same entry code have the same outcome if they and their tables agree on
the identifiers that this code names. -/
theorem invoke_eq_of_agreeOn {entry entry' : Function} (he : program.entry = .ok entry)
    (he' : program'.entry = .ok entry') (hs : entry'.signature = entry.signature)
    (hcode : entry'.code = entry.code) (h : AgreeOn entry.code program program' table table')
    (args : List UInt64) (settings : Settings) :
    invoke program' args table' settings = invoke program args table settings := by
  let m : Machine := { program, table, entry, budget := settings.budget }
  let m' : Machine :=
    { program := program', table := table', entry := entry', budget := settings.budget }
  have hmcode : m'.code = m.code := hcode
  have hrun (s : State) : m'.run s = m.run s := Machine.run_eq_of_agreeOn hmcode rfl h s
  rw [invoke_of_entry he, invoke_of_entry he', hs]
  rcases map_eq_map_cases (link_congr he he' hcode h) with ⟨e, hl', hl⟩ | ⟨_, _, hl', hl, -⟩
  · rw [hl, hl']
    rfl
  · rw [hl, hl']
    change (if _ then _ else Invocation.enter _ _ _ >>= fun s => (m'.run s).1 >>= _) = _
    simp only [hrun]
    rfl

/-- The incrementing program with another function and an import that no call names. -/
def extended : Program where
  functions := [Machine.incrementing.entry, ⟨"spare", .constant, #[call 9]⟩]
  imports := ⟨[(400, ⟨some "spare", Machine.increment.signature⟩)], by decide⟩
  size_le := by decide

/-- The same helper under another name, and one that no call names. -/
def extendedTable : HelperTable :=
  ⟨[(7, Machine.increment), (300, { Machine.increment with name := "renamed" })], by decide⟩

theorem eq_of_names_incrementing (h : Names Machine.incrementing.code id) : id = 300 := by
  obtain ⟨word, hmem, hop, rfl⟩ := h
  have hword : word = mov64Imm 1 10 ∨ word = call 300 ∨ word = exit := by
    simpa [Machine.incrementing, Machine.ofCode, Machine.code] using hmem
  rcases hword with rfl | rfl | rfl
  · exact absurd hop (by decide)
  · rfl
  · exact absurd hop (by decide)

theorem agreeOn_extended : AgreeOn Machine.incrementing.code Machine.incrementing.program extended
    Machine.incrementing.table extendedTable where
  declared id h := by
    rw [eq_of_names_incrementing h]
    rfl
  registered id h := by
    rw [eq_of_names_incrementing h]
    rfl

theorem invoke_eq_of_agreeOn_extended :
    invoke extended [] extendedTable { budget := 10 }
      = invoke Machine.incrementing.program [] Machine.incrementing.table { budget := 10 } ∧
    invoke extended [] extendedTable { budget := 10 } = .ok (some 11) := by
  have he : Machine.incrementing.program.entry = .ok Machine.incrementing.entry := rfl
  have he' : extended.entry = .ok Machine.incrementing.entry := rfl
  have heq := invoke_eq_of_agreeOn he he' rfl rfl agreeOn_extended [] { budget := 10 }
  exact ⟨heq, heq.trans rfl⟩

end Ebpf
