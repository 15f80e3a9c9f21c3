import Ebpf.Instruction.Assembly
import Ebpf.Link
import Ebpf.Proofs.Failure
import Ebpf.Proofs.Scan

/-! # What linking accepts and what it reports

Linking succeeds if each call of the linear scan names a registered helper of the declared
signature. The report then lists these calls, and otherwise the first call that does not resolve
decides the error.
-/

namespace Ebpf

open Assembly

/-- The linear scan of `code` finds the call `i` at `pc`. -/
structure CallAt (code : Array UInt64) (pc : Nat) (i : Instruction) : Prop where
  boundary : Boundary code pc
  instruction : code[pc]?.map .decode = some i
  opcode : i.opcode = opCall

namespace Instruction

/-- The call `i` asks for the registered `helper`, under the signature that it is declared with, if
any. -/
structure ResolvesTo (i : Instruction) (program : Program) (table : HelperTable)
    (helper : Helper) : Prop where
  src : i.src = 0
  registered : table.get? i.helperId = some helper
  declared : ∀ signature, program.declaredSignature i.helperId = some signature →
    signature = helper.signature

/-- Why the call `i` at `pc` does not resolve. -/
inductive Unresolved (i : Instruction) (program : Program) (table : HelperTable) (pc : Nat) :
    Trap → Prop
  | unsupported (hsrc : i.src ≠ 0) : Unresolved i program table pc (.fault (.unsupportedCall pc))
  | unknown (hsrc : i.src = 0) (hreg : table.get? i.helperId = none) :
      Unresolved i program table pc (.unknownHelper i.helperId)
  | mismatch {helper : Helper} {declared : Signature} (hsrc : i.src = 0)
      (hreg : table.get? i.helperId = some helper)
      (hdecl : program.declaredSignature i.helperId = some declared)
      (hne : declared ≠ helper.signature) :
      Unresolved i program table pc (.signatureMismatch i.helperId declared helper.signature)

end Instruction

/-- The report of an entry point whose calls resolve, in a program that has the functions `others`
besides. -/
structure LinkReport.Lists (report : LinkReport) (program : Program) (table : HelperTable)
    (entry : Function) (others : List Function) : Prop where
  name : report.entry = entry.name
  unreachable : report.unreachable = others.map (·.name)
  ascending : report.calls.Pairwise (·.pc < ·.pc)
  mem_calls : ∀ call, call ∈ report.calls ↔ ∃ i helper, CallAt entry.code call.pc i ∧
    i.ResolvesTo program table helper ∧
    call = { pc := call.pc, id := i.helperId, helper := helper.name, signature := helper.signature }

variable {program : Program} {table : HelperTable} {entry : Function} {others : List Function}
  {i : Instruction} {pc : Nat} {cause : Trap}

/-! ### One call -/

namespace Instruction

theorem resolvesTo_or_unresolved (i : Instruction) (program : Program) (table : HelperTable)
    (pc : Nat) :
    (∃ helper, i.ResolvesTo program table helper) ∨
      ∃ cause, i.Unresolved program table pc cause := by
  by_cases hsrc : i.src = 0
  · cases hreg : table.get? i.helperId with
    | none => exact Or.inr ⟨_, .unknown hsrc hreg⟩
    | some helper =>
      cases hdecl : program.declaredSignature i.helperId with
      | none => exact Or.inl ⟨helper, hsrc, hreg, fun _ h => by rw [hdecl] at h; cases h⟩
      | some declared =>
        by_cases heq : declared = helper.signature
        · exact Or.inl ⟨helper, hsrc, hreg, fun _ h => by rw [hdecl] at h; cases h; exact heq⟩
        · exact Or.inr ⟨_, .mismatch hsrc hreg hdecl heq⟩
  · exact Or.inr ⟨_, .unsupported hsrc⟩

theorem link_of_resolvesTo {helper : Helper} (h : i.ResolvesTo program table helper) :
    (i.callSite pc).link program table =
      .ok ⟨pc, i.helperId, helper.name, helper.signature⟩ := by
  have hnone : (program.declaredSignature i.helperId).filter (· ≠ helper.signature) = none := by
    rw [Option.filter_eq_none_iff]
    intro signature hdecl
    simpa using h.declared signature hdecl
  rw [CallSite.link, callSite, h.src, h.registered]
  dsimp only
  rw [hnone]
  rfl

theorem link_of_unresolved (h : i.Unresolved program table pc cause) :
    (i.callSite pc).link program table = .error cause := by
  rw [CallSite.link, callSite]
  cases h with
  | unsupported hsrc => exact if_pos (bne_iff_ne.mpr hsrc)
  | unknown hsrc hreg => rw [hsrc, hreg]; rfl
  | @mismatch helper declared hsrc hreg hdecl hne =>
    rw [hsrc, hreg]
    dsimp only
    rw [hdecl, Option.filter_some, if_pos (decide_eq_true hne)]
    rfl

theorem link_eq_ok_iff {call : ResolvedCall} : (i.callSite pc).link program table = .ok call ↔
    ∃ helper, i.ResolvesTo program table helper ∧
      call = ⟨pc, i.helperId, helper.name, helper.signature⟩ := by
  constructor
  · intro h
    rcases i.resolvesTo_or_unresolved program table pc with ⟨helper, hr⟩ | ⟨cause, hu⟩
    · exact ⟨helper, hr, Except.ok.inj (h.symm.trans (link_of_resolvesTo hr))⟩
    · cases h.symm.trans (link_of_unresolved hu)
  · rintro ⟨helper, hr, rfl⟩
    exact link_of_resolvesTo hr

theorem link_eq_error_iff : (i.callSite pc).link program table = .error cause ↔
    i.Unresolved program table pc cause := by
  constructor
  · intro h
    rcases i.resolvesTo_or_unresolved program table pc with ⟨helper, hr⟩ | ⟨other, hu⟩
    · cases h.symm.trans (link_of_resolvesTo hr)
    · cases h.symm.trans (link_of_unresolved hu)
      exact hu
  · exact link_of_unresolved

end Instruction

/-! ### All calls -/

theorem pc_of_link {site : CallSite} {call : ResolvedCall}
    (h : site.link program table = .ok call) : call.pc = site.pc := by
  unfold CallSite.link at h
  split at h
  · cases h
  · split at h
    · cases h
    · split at h
      · cases h
      · cases h; rfl

theorem Function.mem_callSites_iff_callAt {site : CallSite} : site ∈ entry.callSites ↔
    ∃ pc i, CallAt entry.code pc i ∧ i.callSite pc = site := by
  rw [mem_callSites_iff]
  constructor
  · rintro ⟨word, hb, hw, hop, hsite⟩
    exact ⟨_, _, ⟨hb, by rw [hw]; rfl, hop⟩, hsite⟩
  · rintro ⟨pc, i, ⟨hb, hi, hop⟩, rfl⟩
    obtain ⟨word, hw, rfl⟩ := Option.map_eq_some_iff.mp hi
    exact ⟨word, hb, hw, hop, rfl⟩

theorem entry_of_functions (hf : program.functions = entry :: others) :
    program.entry = .ok entry := by
  rw [Program.entry, hf]
  rfl

theorem link_of_entry (h : program.entry = .ok entry) : link program table =
    (entry.callSites.mapM (CallSite.link program table)).map fun calls =>
      { entry := entry.name, calls, unreachable := program.unreachable.map (·.name) } := by
  unfold link
  rw [h]
  change (entry.callSites.mapM (CallSite.link program table) >>= _) = _
  cases entry.callSites.mapM (CallSite.link program table) <;> rfl

theorem link_eq_ok_iff_of_entry {report : LinkReport} (h : program.entry = .ok entry) :
    link program table = .ok report ↔ ∃ calls,
      entry.callSites.mapM (CallSite.link program table) = .ok calls ∧
      report = { entry := entry.name, calls, unreachable := program.unreachable.map (·.name) } := by
  rw [link_of_entry h]
  cases entry.callSites.mapM (CallSite.link program table) <;> simp [Except.map, eq_comm]

theorem exists_link_iff (h : program.entry = .ok entry) :
    (∃ report, link program table = .ok report) ↔
      ∀ pc i, CallAt entry.code pc i → ∃ helper, i.ResolvesTo program table helper := by
  have hcalls : (∃ report, link program table = .ok report) ↔
      ∃ calls, entry.callSites.mapM (CallSite.link program table) = .ok calls := by
    simp only [link_eq_ok_iff_of_entry h]
    constructor
    · rintro ⟨-, calls, hc, -⟩
      exact ⟨calls, hc⟩
    · rintro ⟨calls, hc⟩
      exact ⟨_, calls, hc, rfl⟩
  rw [hcalls, exists_mapM_eq_ok_iff]
  constructor
  · intro hall pc i hi
    obtain ⟨call, hc⟩ := hall _ (Function.mem_callSites_iff_callAt.mpr ⟨pc, i, hi, rfl⟩)
    obtain ⟨helper, hr, -⟩ := Instruction.link_eq_ok_iff.mp hc
    exact ⟨helper, hr⟩
  · intro hall site hsite
    obtain ⟨pc, i, hi, rfl⟩ := Function.mem_callSites_iff_callAt.mp hsite
    obtain ⟨helper, hr⟩ := hall pc i hi
    exact ⟨_, Instruction.link_of_resolvesTo hr⟩

theorem lists_of_link {report : LinkReport} (hf : program.functions = entry :: others)
    (h : link program table = .ok report) : report.Lists program table entry others := by
  obtain ⟨calls, hc, rfl⟩ := (link_eq_ok_iff_of_entry (entry_of_functions hf)).mp h
  refine { name := rfl, unreachable := ?_, ascending := ?_, mem_calls := fun call => ?_ }
  · rw [Program.unreachable, hf]
    rfl
  · -- The values of a pass through the calls come in the order of the calls.
    have hsites : (entry.callSites.map (CallSite.link program table)).Pairwise
        fun x y => ∀ c d, x = .ok c → y = .ok d → c.pc < d.pc := by
      refine List.pairwise_map.mpr (entry.pairwise_callSites.imp ?_)
      intro site other hlt c d hsite hother
      rw [pc_of_link hsite, pc_of_link hother]
      exact hlt
    rw [mapM_eq_ok_iff.mp hc, List.pairwise_map] at hsites
    exact hsites.imp fun hlt => hlt _ _ rfl rfl
  · rw [mem_iff_of_mapM_eq_ok hc]
    constructor
    · rintro ⟨site, hsite, hcall⟩
      obtain ⟨pc, i, hi, rfl⟩ := Function.mem_callSites_iff_callAt.mp hsite
      obtain ⟨helper, hr, rfl⟩ := Instruction.link_eq_ok_iff.mp hcall
      exact ⟨i, helper, hi, hr, rfl⟩
    · rintro ⟨i, helper, hi, hr, hcall⟩
      exact ⟨_, Function.mem_callSites_iff_callAt.mpr ⟨_, i, hi, rfl⟩,
        Instruction.link_eq_ok_iff.mpr ⟨helper, hr, hcall⟩⟩

theorem link_eq_error_iff_first (h : program.entry = .ok entry) :
    link program table = .error cause ↔
      ∃ pc i, CallAt entry.code pc i ∧ i.Unresolved program table pc cause ∧
        ∀ q j, q < pc → CallAt entry.code q j → ∃ helper, j.ResolvesTo program table helper := by
  have hmap : link program table = .error cause ↔
      entry.callSites.mapM (CallSite.link program table) = .error cause := by
    rw [link_of_entry h]
    cases entry.callSites.mapM (CallSite.link program table) <;> simp [Except.map]
  have hasc := entry.pairwise_callSites
  rw [hmap, mapM_eq_error_iff]
  constructor
  · rintro ⟨before, site, after, hsites, hbefore, hsite⟩
    have hmem : site ∈ entry.callSites := by rw [hsites]; simp
    obtain ⟨pc, i, hi, rfl⟩ := Function.mem_callSites_iff_callAt.mp hmem
    refine ⟨pc, i, hi, Instruction.link_eq_error_iff.mp hsite, fun q j hlt hj => ?_⟩
    have hq := Function.mem_callSites_iff_callAt.mpr ⟨q, j, hj, rfl⟩
    rw [hsites] at hasc hq
    obtain ⟨-, hafter, -⟩ := List.pairwise_append.mp hasc
    have hnot : j.callSite q ∉ i.callSite pc :: after := by
      intro hm
      rcases List.mem_cons.mp hm with heq | hm
      · exact absurd (congrArg CallSite.pc heq) (Nat.ne_of_lt hlt)
      · exact absurd hlt (Nat.lt_asymm (List.rel_of_pairwise_cons hafter hm))
    obtain ⟨call, hc⟩ := hbefore _ ((List.mem_append.mp hq).resolve_right hnot)
    obtain ⟨helper, hr, -⟩ := Instruction.link_eq_ok_iff.mp hc
    exact ⟨helper, hr⟩
  · rintro ⟨pc, i, hi, hu, hbefore⟩
    have hmem := Function.mem_callSites_iff_callAt.mpr ⟨pc, i, hi, rfl⟩
    obtain ⟨before, after, hsites⟩ := List.append_of_mem hmem
    refine ⟨before, _, after, hsites, fun site hsite => ?_, Instruction.link_of_unresolved hu⟩
    rw [hsites] at hasc
    obtain ⟨-, -, hlt⟩ := List.pairwise_append.mp hasc
    have hsite' : site ∈ entry.callSites := by rw [hsites]; exact List.mem_append_left _ hsite
    obtain ⟨q, j, hj, rfl⟩ := Function.mem_callSites_iff_callAt.mp hsite'
    obtain ⟨helper, hr⟩ := hbefore q j (hlt _ hsite _ List.mem_cons_self) hj
    exact ⟨_, Instruction.link_of_resolvesTo hr⟩

/-- Where the second slots of wide loads have the opcode that the machine asks for, the scan misses
no slot with the opcode of a call. -/
theorem callAt_iff_of_secondSlots {code : Array UInt64}
    (h : ∀ (pc : Nat) (i : Instruction), SecondSlot code pc → code[pc]?.map .decode = some i →
      i.opcode = 0) :
    CallAt code pc i ↔ code[pc]?.map .decode = some i ∧ i.opcode = opCall := by
  constructor
  · intro hc
    exact ⟨hc.instruction, hc.opcode⟩
  · rintro ⟨hi, hop⟩
    obtain ⟨word, hw, -⟩ := Option.map_eq_some_iff.mp hi
    obtain ⟨hlt, -⟩ := Array.getElem?_eq_some_iff.mp hw
    rcases boundary_or_secondSlot (Nat.le_of_lt hlt) with hb | h2
    · exact ⟨hb, hi, hop⟩
    · have hzero := h pc i h2 hi
      rw [hop] at hzero
      exact absurd hzero (by decide)

/-- Linking finds out exactly whether the calls of the linear scan resolve. -/
theorem link_exact (hf : program.functions = entry :: others) (table : HelperTable) :
    ((∃ report, link program table = .ok report) ↔
      ∀ pc i, CallAt entry.code pc i → ∃ helper, i.ResolvesTo program table helper) ∧
    (∀ report, link program table = .ok report → report.Lists program table entry others) ∧
    (∀ cause, link program table = .error cause ↔
      ∃ pc i, CallAt entry.code pc i ∧ i.Unresolved program table pc cause ∧
        ∀ q j, q < pc → CallAt entry.code q j → ∃ helper, j.ResolvesTo program table helper) ∧
    ((∀ (pc : Nat) (i : Instruction), SecondSlot entry.code pc →
        entry.code[pc]?.map .decode = some i → i.opcode = 0) →
      ∀ (pc : Nat) (i : Instruction), CallAt entry.code pc i ↔
        entry.code[pc]?.map .decode = some i ∧ i.opcode = opCall) := by
  have he := entry_of_functions hf
  refine ⟨exists_link_iff he, fun report => lists_of_link hf, fun cause => ?_, fun h pc i => ?_⟩
  · exact link_eq_error_iff_first he
  · exact callAt_iff_of_secondSlots h

/-- Two calls with a wide load between them, and a function that nothing reaches. -/
def wideBetweenCalls : Program where
  functions := [⟨"main", .constant, #[call 7, word opLddw 1 0 0 5, 0, call 300, exit]⟩,
    ⟨"spare", .constant, #[exit]⟩]
  imports := .empty
  size_le := by decide

def zeroHelper : Helper := ⟨"zero", .constant, fun _ => .ok 0⟩

def twoHelpers : HelperTable := ⟨[(7, zeroHelper), (300, zeroHelper)], by decide⟩

theorem link_exact_wideBetweenCalls :
    (∃ report, link wideBetweenCalls twoHelpers = .ok report ∧ report.calls.map (·.pc) = [0, 3] ∧
      report.unreachable = ["spare"]) ∧
    (∃ pc i, CallAt #[call 7, word opLddw 1 0 0 5, 0, call 300, exit] pc i ∧
      i.Unresolved wideBetweenCalls .empty pc (.unknownHelper 7)) ∧
    CallAt #[call 7, word opLddw 1 0 0 5, 0, call 300, exit] 3 (.decode (call 300)) := by
  have hf : wideBetweenCalls.functions = _ :: _ := rfl
  obtain ⟨-, hlists, -, hslots⟩ := link_exact hf twoHelpers
  obtain ⟨-, -, hfirst, -⟩ := link_exact hf .empty
  refine ⟨⟨_, rfl, rfl, (hlists _ rfl).unreachable⟩, ?_, ?_⟩
  · obtain ⟨pc, i, hi, hu, -⟩ := (hfirst (.unknownHelper 7)).mp rfl
    exact ⟨pc, i, hi, hu⟩
  · refine (hslots ?_ 3 _).mpr ⟨rfl, rfl⟩
    rintro _ i ⟨q, word, -, hword, hwide, rfl⟩ hi
    -- The only wide load stands at position 1.
    match q, hword, hi with
    | 1, _, hi => cases hi; rfl
    | 0, hword, _ | 2, hword, _ | 3, hword, _ | 4, hword, _ =>
      cases hword
      exact absurd hwide (by decide)
    | _ + 5, hword, _ => cases hword

end Ebpf
