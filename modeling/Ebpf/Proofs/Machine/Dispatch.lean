import Ebpf.Instruction.Assembly
import Ebpf.Link
import Ebpf.Proofs.Machine.Run
import Ebpf.Proofs.Machine.Start
import Ebpf.Proofs.Scan

/-! # Call dispatch against the linker

The machine checks a call when it executes it, the linker checks the calls of the linear scan. For
the same instruction both come to the same answer. The linker misses the calls that are not call
sites: those with the source bit set, and those in the second slot of a wide load. After a
successful link, these are the only calls that can be refused.
-/

namespace Ebpf

open Assembly

inductive Trap.FromDispatch (pc : Nat) : Trap → Prop where
  | unsupportedCall : FromDispatch pc (.fault (.unsupportedCall pc))
  | unknownHelper (id : UInt32) : FromDispatch pc (.unknownHelper id)
  | signatureMismatch (id : UInt32) (declared registered : Signature) :
      FromDispatch pc (.signatureMismatch id declared registered)

theorem CallSite.fromDispatch_of_link {program : Program} {table : HelperTable} {site : CallSite}
    {cause : Trap} (h : site.link program table = .error cause) : cause.FromDispatch site.pc := by
  unfold CallSite.link at h
  split at h
  · cases h; exact .unsupportedCall
  · split at h
    · cases h; exact .unknownHelper _
    · split at h
      · cases h; exact .signatureMismatch ..
      · cases h

theorem link_eq_ok {program : Program} {table : HelperTable} {report : LinkReport}
    (h : link program table = .ok report) : ∃ entry, program.entry = .ok entry ∧
      ∀ site ∈ entry.callSites, ∃ call, site.link program table = .ok call := by
  obtain ⟨entry, he, h⟩ := bind_eq_ok_iff.mp h
  obtain ⟨calls, hc, -⟩ := bind_eq_ok_iff.mp h
  exact ⟨entry, he, exists_mapM_eq_ok_iff.mp ⟨calls, hc⟩⟩

namespace Machine

variable {m : Machine} {s t : State} {i : Instruction} {cause : Trap}

/-- The instruction in state `s` is a call that the linear scan does not list: its source bit is
set, or it stands in the second slot of a wide load. -/
def HiddenCall (m : Machine) (s : State) (i : Instruction) : Prop :=
  m.instruction? s = some i ∧
    (i.opcode = opCallSource ∨ i.opcode = opCall ∧ SecondSlot m.code s.pc)

/-- The machine and the linker make the same checks in the same order. -/
theorem called_eq_error_iff {pc : Nat} : m.called i pc = .error cause ↔
    (i.callSite pc).link m.program m.table = .error cause := by
  rw [called, CallSite.link, Instruction.callSite]
  by_cases hsrc : i.src = 0
  · simp only [hsrc, bne_self_eq_false, Bool.false_eq_true, if_false, callee]
    cases m.table.get? i.helperId with
    | none => simp
    | some helper =>
      cases m.program.declaredSignature i.helperId with
      | none => simp
      | some declared =>
        by_cases hd : declared = helper.signature
        · simp [hd, Option.filter_some]
        · simp [hd, Option.filter_some]
  · simp [hsrc]

theorem refuses_iff : m.Refuses s cause ↔ ∃ i, m.instruction? s = some i ∧ i.IsCall ∧
    (i.callSite s.pc).link m.program m.table = .error cause := by
  constructor
  · rintro ⟨i, hi, hc, he⟩
    rw [effect_of_isCall_eq_error_iff hc, called_eq_error_iff] at he
    exact ⟨i, hi, hc, he⟩
  · rintro ⟨i, hi, hc, he⟩
    refine ⟨i, hi, hc, ?_⟩
    rw [effect_of_isCall_eq_error_iff hc, called_eq_error_iff]
    exact he

theorem mem_callSites_of_instruction? (hi : m.instruction? s = some i) {site : CallSite} :
    site ∈ m.entry.callSites ∧ site.pc = s.pc ↔
      Boundary m.code s.pc ∧ i.opcode = opCall ∧ i.callSite s.pc = site := by
  obtain ⟨word, hw, rfl⟩ := instruction?_eq_some_iff.mp hi
  rw [Function.mem_callSites_iff]
  constructor
  · rintro ⟨⟨other, hb, ho, hop, hsite⟩, hpc⟩
    rw [hpc] at hb ho hsite
    obtain rfl : word = other := Option.some.inj (hw.symm.trans ho)
    exact ⟨hb, hop, hsite⟩
  · rintro ⟨hb, hop, rfl⟩
    exact ⟨⟨word, hb, hw, hop, rfl⟩, rfl⟩

theorem refuses_iff_link_site {site : CallSite} (h : site ∈ m.entry.callSites)
    (hpc : site.pc = t.pc) : m.Refuses t cause ↔ site.link m.program m.table = .error cause := by
  obtain ⟨word, -, hw, -, -⟩ := Function.mem_callSites_iff.mp h
  rw [hpc] at hw
  have hi : m.instruction? t = some (.decode word) := instruction?_eq_some_iff.mpr ⟨word, hw, rfl⟩
  obtain ⟨-, hop, hsite⟩ := (mem_callSites_of_instruction? hi).mp ⟨h, hpc⟩
  have hc := (Instruction.isCall_iff_opcode _).mpr (Or.inl hop)
  rw [refuses_iff]
  constructor
  · rintro ⟨i, hi', -, he⟩
    cases hi.symm.trans hi'
    rwa [hsite] at he
  · intro he
    exact ⟨_, hi, hc, by rwa [hsite]⟩

/-- A call is hidden exactly if it is no call site. -/
theorem hiddenCall_iff (hi : m.instruction? s = some i) (hc : i.IsCall) :
    m.HiddenCall s i ↔ s.pc ∉ m.entry.callSites.map (·.pc) := by
  have hlisted : s.pc ∈ m.entry.callSites.map (·.pc) ↔
      Boundary m.code s.pc ∧ i.opcode = opCall := by
    rw [List.mem_map]
    constructor
    · rintro ⟨site, hsite⟩
      obtain ⟨hb, hop, -⟩ := (mem_callSites_of_instruction? hi).mp hsite
      exact ⟨hb, hop⟩
    · rintro ⟨hb, hop⟩
      exact ⟨_, (mem_callSites_of_instruction? hi).mpr ⟨hb, hop, rfl⟩⟩
  rw [hlisted, HiddenCall]
  have hlt := pc_lt_of_instruction? hi
  constructor
  · rintro ⟨-, hop | ⟨hop, h2⟩⟩ ⟨hb, hop'⟩
    · rw [hop] at hop'
      exact absurd hop' (by decide)
    · exact h2.not_boundary hb
  · intro hn
    refine ⟨hi, ?_⟩
    rcases i.isCall_iff_opcode.mp hc with hop | hop
    · have hb : ¬ Boundary m.code s.pc := fun hb => hn ⟨hb, hop⟩
      exact Or.inr ⟨hop, (boundary_or_secondSlot (Nat.le_of_lt hlt)).resolve_left hb⟩
    · exact Or.inl hop

theorem fromDispatch_of_refuses (h : m.Refuses s cause) : cause.FromDispatch s.pc := by
  obtain ⟨i, -, -, hl⟩ := refuses_iff.mp h
  exact CallSite.fromDispatch_of_link hl

variable {program : Program} {table : HelperTable} {settings : Settings} {report : LinkReport}
  {s₀ : State}

theorem hiddenCall_of_refuses (hl : link program table = .ok report)
    (hm : Machine.start program table settings = .ok (m, s₀)) (h : m.Refuses t cause) :
    ∃ i, m.HiddenCall t i ∧ t.pc ∉ m.entry.callSites.map (·.pc) := by
  obtain ⟨hentry, hp, ht, -⟩ := fields_of_start hm
  obtain ⟨entry, he, hsites⟩ := link_eq_ok hl
  obtain rfl : m.entry = entry := Except.ok.inj (hentry.symm.trans he)
  obtain ⟨i, hi, hc, -⟩ := id h
  have hn : t.pc ∉ m.entry.callSites.map (·.pc) := by
    intro hmem
    obtain ⟨site, hsite, hpc⟩ := List.mem_map.mp hmem
    obtain ⟨call, hcall⟩ := hsites site hsite
    have hr := (refuses_iff_link_site hsite hpc).mp h
    rw [hp, ht, hcall] at hr
    cases hr
  exact ⟨i, (hiddenCall_iff hi hc).mpr hn, hn⟩

theorem refuses_of_hiddenCall (h : m.HiddenCall t i)
    (hl : (i.callSite t.pc).link m.program m.table = .error cause) : m.Refuses t cause := by
  obtain ⟨hi, hop⟩ := h
  refine refuses_iff.mpr ⟨i, hi, i.isCall_iff_opcode.mpr ?_, hl⟩
  rcases hop with hop | ⟨hop, -⟩
  · exact Or.inr hop
  · exact Or.inl hop

/-- Where the scan lists a call site, dispatch and the linker's check agree; a refused call that
the linker does not report is hidden. -/
theorem Executes.refuses_iff_link (hm : Machine.start program table settings = .ok (m, s₀))
    (ht : m.Executes s t) :
    (∀ site ∈ m.entry.callSites, site.pc = t.pc → ∀ cause,
      (m.Refuses t cause ↔ site.link program table = .error cause)) ∧
    ∀ cause, m.Refuses t cause → cause.FromDispatch t.pc ∧ m.helperCall? t = none ∧
      m.run s = (.error cause, t.fetched) ∧ ((∃ e, link program table = .error e) ∨
        t.pc ∉ m.entry.callSites.map (·.pc) ∧ ∃ i, m.HiddenCall t i) := by
  obtain ⟨-, hp, htab, -⟩ := fields_of_start hm
  constructor
  · intro site hsite hpc cause
    rw [refuses_iff_link_site hsite hpc, hp, htab]
  · intro cause hr
    refine ⟨fromDispatch_of_refuses hr, helperCall?_of_refuses hr,
      run_of_trap ht (step_of_refuses hr), ?_⟩
    cases hl : link program table with
    | error e => exact Or.inl ⟨e, rfl⟩
    | ok report =>
      obtain ⟨i, hi, hn⟩ := hiddenCall_of_refuses hl hm hr
      exact Or.inr ⟨hn, i, hi⟩

def oneArgument : Signature :=
  { arity := 1, returns := true, arity_le := one_le_maxArguments }

def twoArguments : Signature :=
  { arity := 2, returns := true, arity_le := two_le_maxArguments }

/-- A call of a helper that takes one argument more than the program declares. -/
def mismatched : Machine :=
  ofCode #[call 200, exit] ⟨[(200, ⟨none, oneArgument⟩)], by decide⟩
    ⟨[(200, ⟨"add", twoArguments, fun _ => .ok 0⟩)], by decide⟩

theorem refuses_iff_link_mismatched : ∃ s,
    Machine.start mismatched.program mismatched.table {} = .ok (mismatched, s) ∧
    mismatched.Executes s s ∧
    mismatched.Refuses s (.signatureMismatch 200 oneArgument twoArguments) ∧
    mismatched.helperCall? s = none ∧
    mismatched.run s = (.error (.signatureMismatch 200 oneArgument twoArguments), s.fetched) := by
  have ht : mismatched.Executes (.initial .blank) (.initial .blank) := ⟨.refl, by decide⟩
  have hsite : ⟨0, 200, false⟩ ∈ mismatched.entry.callSites := by decide
  obtain ⟨hsites, hrefused⟩ := Executes.refuses_iff_link start_ofCode ht
  have hr := (hsites _ hsite rfl (.signatureMismatch 200 oneArgument twoArguments)).mpr rfl
  obtain ⟨-, hcall, hrun, -⟩ := hrefused _ hr
  exact ⟨_, start_ofCode, ht, hr, hcall, hrun⟩

/-- After a successful link, a run meets no refused call exactly if each hidden call that it
executes passes the linker's check. A run that fails in another way meets a failing helper or an
execution fault. -/
theorem unrefused_iff_hiddenCall (hl : link program table = .ok report)
    (hm : Machine.start program table settings = .ok (m, s₀)) :
    ((∀ t cause, m.Executes s t → ¬ m.Refuses t cause) ↔
      ∀ t i, m.Executes s t → m.HiddenCall t i →
        ∃ call, (i.callSite t.pc).link program table = .ok call) ∧
    ∀ cause u, m.run s = (.error cause, u) →
      (∃ t i, m.Executes s t ∧ m.HiddenCall t i ∧ m.Refuses t cause) ∨
      (∃ t c f, m.Executes s t ∧ m.helperCall? t = some c ∧ c.result = .error f ∧
        cause = .fault (f.raisedBy c.id)) ∨
      ∃ f, cause = .fault f ∧ f.IsExecution := by
  obtain ⟨-, hp, htab, -⟩ := fields_of_start hm
  refine ⟨⟨?_, ?_⟩, ?_⟩
  · intro h t i ht hi
    cases hcall : (i.callSite t.pc).link program table with
    | ok call => exact ⟨call, rfl⟩
    | error cause =>
      rw [← hp, ← htab] at hcall
      exact absurd (refuses_of_hiddenCall hi hcall) (h t cause ht)
  · intro h t cause ht hr
    obtain ⟨i, hi, -⟩ := hiddenCall_of_refuses hl hm hr
    obtain ⟨call, hcall⟩ := h t i ht hi
    obtain ⟨other, hother, -, he⟩ := refuses_iff.mp hr
    obtain rfl : i = other := Option.some.inj (hi.1.symm.trans hother)
    rw [hp, htab, hcall] at he
    cases he
  · intro cause u h
    rcases run_error_cases h with ⟨t, ht, hr⟩ | hf
    · obtain ⟨i, hi, -⟩ := hiddenCall_of_refuses hl hm hr
      exact Or.inl ⟨t, i, ht, hi, hr⟩
    · exact Or.inr hf

/-- A call with the source bit set, which the linear scan does not list. -/
def unlisted : Machine := ofCode #[word opCallSource 0 0 0 200, exit] .empty .empty

theorem link_unlisted : link unlisted.program .empty = .ok ⟨"main", [], []⟩ := rfl

theorem refuses_unlisted : unlisted.Refuses (.initial .blank) (.unknownHelper 200) :=
  ⟨.decode (word opCallSource 0 0 0 200), rfl, by unfold Instruction.IsCall; decide, rfl⟩

theorem run_unlisted : unlisted.run (.initial .blank)
    = (.error (.unknownHelper 200), (State.initial .blank).fetched) :=
  run_of_trap ⟨.refl, by decide⟩ (step_of_refuses refuses_unlisted)

/-- A program that links can run into a call of a helper that is not registered. -/
theorem refuses_of_link_unlisted : ∃ report s u,
    link unlisted.program .empty = .ok report ∧ report.calls = [] ∧
    Machine.start unlisted.program .empty {} = .ok (unlisted, s) ∧
    Invocation.bindArguments s [] = .ok s ∧ unlisted.Refuses s (.unknownHelper 200) ∧
    unlisted.run s = (.error (.unknownHelper 200), u) :=
  ⟨_, _, _, link_unlisted, rfl, start_ofCode, rfl, refuses_unlisted, run_unlisted⟩

theorem hiddenCall_unlisted : ∃ report s t i, link unlisted.program .empty = .ok report ∧
    Machine.start unlisted.program .empty {} = .ok (unlisted, s) ∧
    unlisted.Executes s t ∧ unlisted.HiddenCall t i ∧ unlisted.Refuses t (.unknownHelper 200) := by
  obtain ⟨-, hrun⟩ := unrefused_iff_hiddenCall link_unlisted start_ofCode
  rcases hrun _ _ run_unlisted with ⟨t, i, ht⟩ | ⟨t, c, f, -, -, -, hf⟩ | ⟨f, hf, -⟩
  · exact ⟨_, _, t, i, link_unlisted, start_ofCode, ht⟩
  · cases hf
  · cases hf

end Machine

end Ebpf
