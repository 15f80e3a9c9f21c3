import Ebpf.Instruction.Assembly
import Ebpf.Proofs.Machine.Run
import Ebpf.Proofs.Machine.Start
import Ebpf.Proofs.Scan

/-! # Runs and the linear scan

From a boundary of the linear scan, every instruction but a jump leads to the next boundary. A jump
can lead to the second slot of a wide load, and the machine then runs what it finds there, provided
that its opcode is not 0. A run leaves the boundaries in no other way.
-/

namespace Ebpf

open Assembly

namespace Machine

/-- The instruction fetched in state `s` is the second slot of a wide load of the linear scan, and
its opcode is not 0, as the wide load would ask for. -/
def OffScan (m : Machine) (s : State) : Prop :=
  SecondSlot m.code s.pc ∧ ∃ i, m.instruction? s = some i ∧ i.opcode ≠ 0

variable {m : Machine} {s t u v : State} {i : Instruction}

theorem boundary_of_next (hb : Boundary m.code s.pc) (h : m.step s = .next u) :
    Boundary m.code u.pc ∨ ∃ off, m.Jumps s off := by
  obtain ⟨i, hi, -, hpc | ⟨off, hj, -⟩⟩ := step_next h
  · obtain ⟨word, hw, rfl⟩ := instruction?_eq_some_iff.mp hi
    rw [hpc]
    exact Or.inl (hb.next hw)
  · exact Or.inr ⟨off, hj⟩

/-- The instruction of opcode 0 is a load of a mode that does not exist. -/
theorem effect_of_opcode_eq_zero {pc : Nat} (h : i.opcode = 0) :
    m.effect i pc s = .error (.fault (i.invalid pc)) := by
  have hc : i.cls = .ld := by rw [Instruction.cls, h]; rfl
  have hw : i.isWide = false := by rw [Instruction.isWide, h]; rfl
  have hm : i.mode? = some .immediate := by
    rw [Instruction.mode?, Instruction.modeBits, h]; rfl
  simp only [effect, query, hc, hw, Instruction.packetQuery, Instruction.offsetQuery, hm]
  rfl

theorem offScan_of_not_boundary (hn : ¬ Boundary m.code s.pc)
    (hok : ∀ cause u, m.step s ≠ .trap cause u) : m.OffScan s := by
  cases hi : m.instruction? s with
  | none => exact absurd (step_of_none hi) (hok _ _)
  | some i =>
    have hlt := pc_lt_of_instruction? hi
    refine ⟨(boundary_or_secondSlot (Nat.le_of_lt hlt)).resolve_left hn, i, hi, ?_⟩
    intro h0
    exact hok _ _ (step_of_error hi (effect_of_opcode_eq_zero h0))

/-- The first state off the boundaries is the target of a jump. -/
theorem Reaches.boundary_or_jump (hb : Boundary m.code s.pc) (h : m.Reaches s t) :
    Boundary m.code t.pc ∨ ∃ u v off, m.Reaches s u ∧ Boundary m.code u.pc ∧ m.Jumps u off ∧
      m.Next u v ∧ ¬ Boundary m.code v.pc ∧ m.Reaches v t := by
  induction h with
  | refl => exact Or.inl hb
  | @tail t w hr hn ih =>
    rcases ih with ht | ⟨u, v, off, hu, hub, hj, huv, hv, hvt⟩
    · by_cases hw : Boundary m.code w.pc
      · exact Or.inl hw
      · obtain ⟨off, hj⟩ := (boundary_of_next ht hn).resolve_left hw
        exact Or.inr ⟨t, w, off, hr, ht, hj, hn, hw, .refl⟩
    · exact Or.inr ⟨u, v, off, hu, hub, hj, huv, hv, .tail hvt hn⟩

theorem Reaches.step_ne_trap (h : m.Reaches s t) (hok : ∀ cause u, m.step t ≠ .trap cause u) :
    ∀ cause u, m.step s ≠ .trap cause u := by
  rcases Relation.ReflTransGen.cases_head h with rfl | ⟨v, hn, -⟩
  · exact hok
  · intro cause u hs
    rw [show m.step s = .next v from hn] at hs
    cases hs

theorem mem_boundaries_of_instruction? (hi : m.instruction? s = some i) :
    s.pc ∈ m.entry.boundaries ↔ Boundary m.code s.pc := by
  rw [Function.mem_boundaries_iff]
  exact ⟨And.left, fun h => ⟨h, pc_lt_of_instruction? hi⟩⟩

/-- An instruction that a run executes without a trap is one of the linear scan, unless a jump from
the linear scan to the second slot of a wide load has come before. -/
theorem Executes.boundary_or_offScan {program : Program} {table : HelperTable}
    {settings : Settings} {args : List UInt64} {s₀ : State}
    (hm : Machine.start program table settings = .ok (m, s₀))
    (hs : Invocation.bindArguments s₀ args = .ok s) (ht : m.Executes s t)
    (hok : ∀ cause u, m.step t ≠ .trap cause u) :
    t.pc ∈ m.entry.boundaries ∨ m.OffScan t ∧ ∃ u v off, m.Executes s u ∧
      u.pc ∈ m.entry.boundaries ∧ m.Jumps u off ∧ m.Next u v ∧ m.OffScan v ∧ m.Reaches v t := by
  obtain ⟨-, memory, -, -, -, rfl⟩ := start_eq_ok_iff.mp hm
  obtain ⟨-, hpc, -⟩ := Invocation.bindArguments_eq_ok hs
  have hfirst : Boundary m.code s.pc := by rw [hpc]; exact .start
  obtain ⟨hr, hlt⟩ := ht
  by_cases hb : Boundary m.code t.pc
  · cases hi : m.instruction? t with
    | none => exact absurd (step_of_none hi) (hok _ _)
    | some i => exact Or.inl ((mem_boundaries_of_instruction? hi).mpr hb)
  · obtain ⟨u, v, off, hu, hub, hj, hn, hv, hvt⟩ := (hr.boundary_or_jump hfirst).resolve_left hb
    have ⟨i, hi, _⟩ := hj
    have := hn.steps_eq
    have := hvt.steps_le
    exact Or.inr ⟨offScan_of_not_boundary hb hok, u, v, off, ⟨hu, by omega⟩,
      (mem_boundaries_of_instruction? hi).mpr hub, hj, hn,
      offScan_of_not_boundary hv (hvt.step_ne_trap hok), hvt⟩

/-- A jump over the first slot of a wide load whose second slot is an exit. -/
def intoWide : Machine := ofCode #[ja 1, word opLddw 0 0 0 0, exit] .empty .empty

def intoWideState : State := { State.initial .blank with pc := 2, steps := 1 }

theorem executes_intoWide : intoWide.Executes (.initial .blank) intoWideState :=
  ⟨.single rfl, by decide⟩

theorem step_intoWide : intoWide.step intoWideState = .exit 0 intoWideState.fetched := rfl

/-- The second slot of a wide load can run as an instruction of its own. -/
theorem executes_second_slot : ∃ s t u,
    Machine.start intoWide.program .empty {} = .ok (intoWide, s) ∧
    Invocation.bindArguments s [] = .ok s ∧ intoWide.Executes s t ∧
    intoWide.step t = .exit 0 u ∧ t.pc ∉ intoWide.entry.boundaries :=
  ⟨_, _, _, start_ofCode, rfl, executes_intoWide, step_intoWide, by decide⟩

theorem offScan_intoWide : ∃ s t, Machine.start intoWide.program .empty {} = .ok (intoWide, s) ∧
    Invocation.bindArguments s [] = .ok s ∧ intoWide.Executes s t ∧
    (∀ cause u, intoWide.step t ≠ .trap cause u) ∧ intoWide.OffScan t ∧
    ∃ u v off, intoWide.Executes s u ∧ u.pc ∈ intoWide.entry.boundaries ∧
      intoWide.Jumps u off ∧ intoWide.Next u v ∧ intoWide.OffScan v ∧ intoWide.Reaches v t := by
  have hok : ∀ cause u, intoWide.step intoWideState ≠ .trap cause u := by
    intro cause u
    rw [step_intoWide]
    nofun
  have hs : Invocation.bindArguments (.initial .blank) [] = .ok (.initial .blank) := rfl
  have h := Executes.boundary_or_offScan start_ofCode hs executes_intoWide hok
  exact ⟨_, _, start_ofCode, hs, executes_intoWide, hok, h.resolve_left (by decide)⟩

end Machine

end Ebpf
