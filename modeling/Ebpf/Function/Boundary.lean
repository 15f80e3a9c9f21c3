import Ebpf.Function

/-! # Instruction boundaries

A boundary is a position that whole instructions reach from the front of the code. The linear
scan goes through the boundaries within the code, in ascending order.
-/

namespace Ebpf

/-- The last boundary is the end of the code, or one position behind it if the code ends in
the middle of a wide load. -/
inductive Boundary (code : Array UInt64) : Nat → Prop where
  | start : Boundary code 0
  | next {pc : Nat} {word : UInt64} (h : Boundary code pc) (hw : code[pc]? = some word) :
      Boundary code (pc + (Instruction.decode word).width)

namespace Boundary

variable {code : Array UInt64} {p q : Nat} {word : UInt64}

theorem add_width_le (hp : Boundary code p) (hq : Boundary code q) (hw : code[q]? = some word)
    (h : q < p) : q + (Instruction.decode word).width ≤ p := by
  induction p using Nat.strongRecOn generalizing q word with
  | ind p ih =>
    cases hp with
    | start => omega
    | @next r other hr ho =>
      have pos := Instruction.width_pos (.decode other)
      rcases Nat.lt_trichotomy q r with hlt | rfl | hlt
      · have := ih r (by omega) hr hq hw hlt
        omega
      · rw [ho, Option.some.injEq] at hw
        exact Nat.le_of_eq (by rw [hw])
      · have := ih q h hq hr ho hlt
        omega

end Boundary

@[semireducible]
def boundariesFrom (code : Array UInt64) (pc : Nat) : List Nat :=
  if h : pc < code.size then pc :: boundariesFrom code (pc + (Instruction.decode code[pc]).width)
  else []
termination_by code.size - pc
decreasing_by
  have := Instruction.width_pos (.decode code[pc])
  omega

def Function.boundaries (f : Function) : List Nat := boundariesFrom f.code 0

section

variable {code : Array UInt64} {pc p : Nat}

theorem boundariesFrom_of_lt (h : pc < code.size) : boundariesFrom code pc =
    pc :: boundariesFrom code (pc + (Instruction.decode code[pc]).width) := by
  rw [boundariesFrom, dif_pos h]

theorem boundariesFrom_of_le (h : code.size ≤ pc) : boundariesFrom code pc = [] := by
  rw [boundariesFrom, dif_neg (Nat.not_lt.mpr h)]

theorem mem_boundariesFrom_iff (hb : Boundary code pc) :
    p ∈ boundariesFrom code pc ↔ Boundary code p ∧ pc ≤ p ∧ p < code.size := by
  fun_induction boundariesFrom code pc with
  | case1 pc hlt ih =>
    have hw : code[pc]? = some code[pc] := Array.getElem?_eq_getElem hlt
    have pos := Instruction.width_pos (.decode code[pc])
    rw [List.mem_cons, ih (hb.next hw)]
    constructor
    · rintro (rfl | ⟨hp, hle, hlt⟩)
      · exact ⟨hb, Nat.le_refl _, hlt⟩
      · exact ⟨hp, by omega, hlt⟩
    · rintro ⟨hp, hle, hlt⟩
      rcases Nat.lt_or_eq_of_le hle with h | rfl
      · exact .inr ⟨hp, hp.add_width_le hb hw h, hlt⟩
      · exact .inl rfl
  | case2 pc hle =>
    simp only [List.not_mem_nil, false_iff]
    omega

theorem pairwise_boundariesFrom (hb : Boundary code pc) :
    (boundariesFrom code pc).Pairwise (· < ·) := by
  fun_induction boundariesFrom code pc with
  | case1 pc hlt ih =>
    have hw : code[pc]? = some code[pc] := Array.getElem?_eq_getElem hlt
    have pos := Instruction.width_pos (.decode code[pc])
    rw [List.pairwise_cons]
    refine ⟨fun p hp => ?_, ih (hb.next hw)⟩
    have := ((mem_boundariesFrom_iff (hb.next hw)).1 hp).2.1
    omega
  | case2 => exact .nil

end

namespace Function

theorem mem_boundaries_iff (f : Function) (p : Nat) :
    p ∈ f.boundaries ↔ Boundary f.code p ∧ p < f.code.size := by
  rw [boundaries, mem_boundariesFrom_iff .start]
  simp

theorem pairwise_boundaries (f : Function) : f.boundaries.Pairwise (· < ·) :=
  pairwise_boundariesFrom .start

end Function

end Ebpf
