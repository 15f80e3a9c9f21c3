import Ebpf.Function.Boundary

/-! # What the linear scan finds

Each position of the code is a boundary or the second slot of a wide load. The search for call sites
goes through the boundaries, so it finds those at which the opcode of a call stands.
-/

namespace Ebpf

/-- The slot behind the first slot of a wide load that the linear scan finds. -/
def SecondSlot (code : Array UInt64) (p : Nat) : Prop :=
  ∃ q word, Boundary code q ∧ code[q]? = some word ∧
    (Instruction.decode word).isWide = true ∧ p = q + 1

theorem Instruction.width_of_isWide {i : Instruction} (h : i.isWide = true) : i.width = 2 :=
  if_pos h

theorem Instruction.width_of_not_isWide {i : Instruction} (h : i.isWide = false) : i.width = 1 :=
  if_neg (by simp [h])

theorem SecondSlot.not_boundary {code : Array UInt64} {p : Nat} (h : SecondSlot code p) :
    ¬ Boundary code p := by
  obtain ⟨q, word, hq, hw, hwide, rfl⟩ := h
  intro hb
  have := hb.add_width_le hq hw (Nat.lt_succ_self q)
  rw [Instruction.width_of_isWide hwide] at this
  omega

theorem boundary_or_secondSlot {code : Array UInt64} {p : Nat} (h : p ≤ code.size) :
    Boundary code p ∨ SecondSlot code p := by
  induction p with
  | zero => exact Or.inl .start
  | succ p ih =>
    have hw : code[p]? = some code[p] := Array.getElem?_eq_getElem h
    rcases ih (Nat.le_of_succ_le h) with hb | ⟨q, word, hq, hword, hwide, rfl⟩
    · cases hwide : (Instruction.decode code[p]).isWide with
      | true => exact Or.inr ⟨p, code[p], hb, hw, hwide, rfl⟩
      | false =>
        have := hb.next hw
        rw [Instruction.width_of_not_isWide hwide] at this
        exact Or.inl this
    · have := hq.next hword
      rw [Instruction.width_of_isWide hwide] at this
      exact Or.inl this

def Instruction.callSite (i : Instruction) (pc : Nat) : CallSite := ⟨pc, i.helperId, i.src != 0⟩

def callSiteAt? (code : Array UInt64) (pc : Nat) : Option CallSite :=
  code[pc]?.bind fun word =>
    if (Instruction.decode word).opcode = opCall then some ((Instruction.decode word).callSite pc)
    else none

theorem callSiteAt?_eq_some_iff {code : Array UInt64} {pc : Nat} {site : CallSite} :
    callSiteAt? code pc = some site ↔ ∃ word, code[pc]? = some word ∧
      (Instruction.decode word).opcode = opCall ∧ (Instruction.decode word).callSite pc = site := by
  simp [callSiteAt?, Option.bind_eq_some_iff]

/-- The search takes the same steps as the linear scan, also over a wide load that the code ends
behind. -/
theorem callSitesFrom_eq (code : Array UInt64) (pc : Nat) :
    callSitesFrom code pc = (boundariesFrom code pc).filterMap (callSiteAt? code) := by
  have hwidth (i : Instruction) : i.width = if i.opcode = opLddw then 2 else 1 := by
    simp [Instruction.width, Instruction.isWide]
  fun_induction callSitesFrom code pc with
  | case1 pc hlt i later hcall ih =>
    have hsite : callSiteAt? code pc = some (i.callSite pc) :=
      callSiteAt?_eq_some_iff.mpr ⟨_, Array.getElem?_eq_getElem hlt, hcall, rfl⟩
    rw [boundariesFrom_of_lt hlt, hwidth, List.filterMap_cons_some hsite]
    exact congrArg _ ih
  | case2 pc hlt i later hcall ih =>
    have hsite : callSiteAt? code pc = none := by
      simp [callSiteAt?, hlt, show (Instruction.decode code[pc]).opcode ≠ opCall from hcall]
    rw [boundariesFrom_of_lt hlt, hwidth, List.filterMap_cons_none hsite]
    exact ih
  | case3 pc hle => rw [boundariesFrom_of_le (Nat.not_lt.mp hle), List.filterMap_nil]

namespace Function

variable {f : Function}

theorem mem_callSites_iff {site : CallSite} : site ∈ f.callSites ↔
    ∃ word, Boundary f.code site.pc ∧ f.code[site.pc]? = some word ∧
      (Instruction.decode word).opcode = opCall ∧
      (Instruction.decode word).callSite site.pc = site := by
  rw [callSites, callSitesFrom_eq, List.mem_filterMap]
  constructor
  · rintro ⟨p, hp, hsite⟩
    obtain ⟨word, hw, hop, rfl⟩ := callSiteAt?_eq_some_iff.mp hsite
    exact ⟨word, ((f.mem_boundaries_iff p).mp hp).1, hw, hop, rfl⟩
  · rintro ⟨word, hb, hw, hop, hsite⟩
    obtain ⟨hlt, -⟩ := Array.getElem?_eq_some_iff.mp hw
    exact ⟨site.pc, (f.mem_boundaries_iff _).mpr ⟨hb, hlt⟩,
      callSiteAt?_eq_some_iff.mpr ⟨word, hw, hop, hsite⟩⟩

theorem pairwise_callSites (f : Function) : f.callSites.Pairwise (·.pc < ·.pc) := by
  rw [callSites, callSitesFrom_eq, List.pairwise_filterMap]
  refine f.pairwise_boundaries.imp ?_
  intro p q hlt site hsite other hother
  obtain ⟨_, -, -, rfl⟩ := callSiteAt?_eq_some_iff.mp hsite
  obtain ⟨_, -, -, rfl⟩ := callSiteAt?_eq_some_iff.mp hother
  exact hlt

end Function

end Ebpf
