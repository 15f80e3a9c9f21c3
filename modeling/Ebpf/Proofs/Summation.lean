import Ebpf.Proofs.Invoke
import Ebpf.Proofs.Link
import Ebpf.Proofs.Machine.Assembled

/-! # A summation loop

The loop adds the numbers from its argument down to one. What it has added and what is left to add
stay the same in sum from round to round, so that the program returns the closed form, cut to 64
bits. A round takes four instructions, which gives the least budget that the program needs.
-/

namespace Ebpf

open Assembly

/-- R0 becomes the sum of the numbers from R1 down to one. -/
def Function.summation : Function where
  name := "main"
  signature := ⟨1, true, one_le_maxArguments⟩
  code := #[
    mov64Imm 0 0,
    jmpImm Condition.eq.bits 1 0 3,
    add64Reg 0 1,
    alu64Imm ArithmeticOp.sub.bits 1 1,
    ja (-4),
    exit]

def Program.summation : Program where
  functions := [.summation]
  imports := .empty
  size_le := by decide

namespace Summation

def triangle (k : Nat) : UInt64 := .ofNat (k * (k + 1) / 2)

theorem triangle_succ (k : Nat) : triangle (k + 1) = .ofNat (k + 1) + triangle k := by
  have hsplit : (k + 1) * (k + 1 + 1) = 2 * (k + 1) + k * (k + 1) := by
    rw [← Nat.add_mul, Nat.mul_comm, Nat.add_comm 2 k]
  rw [triangle, hsplit, Nat.mul_add_div (by decide), UInt64.ofNat_add, triangle]

def machine (table : HelperTable) (budget : UInt64) : Machine where
  program := .summation
  table
  entry := .summation
  budget

/-- The next instruction is the test of the loop, with `k` numbers left to add. What has been added
and what is left make up `total`. -/
structure AtHead (total : UInt64) (k : Nat) (s : State) : Prop where
  pc : s.pc = 1
  lt : k < 2 ^ 64
  left : s.regs.get? 1 = some (.ofNat k)
  sum : ∃ a, s.regs.get? 0 = some a ∧ a + triangle k = total

variable (table : HelperTable) (budget : UInt64) {total n : UInt64} {k : Nat} {s : State}
  {context : Array UInt8}

theorem holds_eq_zero_iff (hk : k < 2 ^ 64) :
    Condition.Holds .eq 64 (UInt64.ofNat k).toNat (wrap 64 (0 : Int32).toInt) ↔ k = 0 := by
  rw [Condition.Holds, UInt64.toNat_ofNat_of_lt' hk]
  rfl

/-- A round adds the largest number that is left. -/
theorem AtHead.round (h : AtHead total (k + 1) s) :
    ∃ t, (machine table budget).after 4 s = some t ∧ AtHead total k t := by
  obtain ⟨regs, memory, pc, steps⟩ := s
  obtain ⟨hpc, hlt, hleft, a, ha, hsum⟩ := h
  obtain rfl : pc = 1 := hpc
  -- The registers behind the addition and behind the count.
  let added := regs.set 0 (a + .ofNat (k + 1))
  let counted := added.set 1 (.ofNat k)
  have htest : (machine table budget).step ⟨regs, memory, 1, steps⟩ =
      .next ⟨regs, memory, 2, steps + 1⟩ := by
    refine Machine.step_jmpImm .eq rfl (by decide) hleft ?_
    exact mt (holds_eq_zero_iff hlt).mp (Nat.succ_ne_zero k)
  have hadd : (machine table budget).step ⟨regs, memory, 2, steps + 1⟩ =
      .next ⟨added, memory, 3, steps + 2⟩ :=
    Machine.step_alu64Reg .add rfl nofun (by decide) (by decide) ha hleft rfl
  have hsub : (machine table budget).step ⟨added, memory, 3, steps + 2⟩ =
      .next ⟨counted, memory, 4, steps + 3⟩ := by
    have hget : added.get? 1 = some (.ofNat (k + 1)) :=
      (regs.get?_set_of_ne (by decide)).trans hleft
    refine Machine.step_alu64Imm .sub rfl (by decide) hget ?_
    rw [UInt64.ofNat_add]
    exact congrArg some (UInt64.add_sub_cancel ..)
  have hback : (machine table budget).step ⟨counted, memory, 4, steps + 3⟩ =
      .next ⟨counted, memory, 1, steps + 4⟩ :=
    (Machine.lands_ja rfl).next 1 rfl (show 1 ≤ 6 by decide)
  refine ⟨⟨counted, memory, 1, steps + 4⟩, ?_, ?_⟩
  · apply Machine.after_eq_some_iff.mpr
    exact ⟨.head htest (.head hadd (.head hsub (.single hback))), rfl⟩
  · have hget : added.get? 0 = some (a + .ofNat (k + 1)) :=
      regs.get?_set_self (by decide)
    refine { pc := rfl, lt := Nat.lt_of_succ_lt hlt, left := ?_, sum := ?_ }
    · exact added.get?_set_self (by decide)
    · refine ⟨_, (added.get?_set_of_ne (by decide)).trans hget, ?_⟩
      rw [UInt64.add_assoc, ← triangle_succ]
      exact hsum

theorem AtHead.exit (h : AtHead total 0 s) : ∃ t u,
    (machine table budget).after 1 s = some t ∧ (machine table budget).step t = .exit total u := by
  obtain ⟨regs, memory, pc, steps⟩ := s
  obtain ⟨hpc, hlt, hleft, a, ha, hsum⟩ := h
  obtain rfl : pc = 1 := hpc
  obtain rfl : a = total := (UInt64.add_zero a).symm.trans hsum
  have htest : (machine table budget).step ⟨regs, memory, 1, steps⟩ =
      .next ⟨regs, memory, 5, steps + 1⟩ := by
    have hlands : (machine table budget).Lands ⟨regs, memory, 1, steps⟩ 3 :=
      Machine.lands_jmpImm .eq rfl (by decide) hleft ((holds_eq_zero_iff hlt).mpr rfl)
    exact hlands.next 5 rfl (show 5 ≤ 6 by decide)
  have hexit : (machine table budget).step ⟨regs, memory, 5, steps + 1⟩ = _ :=
    Machine.step_exit rfl ha
  exact ⟨_, _, Machine.after_eq_some_iff.mpr ⟨.single htest, rfl⟩, hexit⟩

theorem exists_atHead (h : Invocation.Entered 1 [n] context s) :
    ∃ t, (machine table budget).after 1 s = some t ∧ AtHead (triangle n.toNat) n.toNat t := by
  obtain ⟨regs, memory, pc, steps⟩ := s
  obtain rfl : pc = 0 := h.pc
  have harg : regs.get? 1 = some n := h.argument 0 (by decide)
  have hzero : regs.get? 0 = some 0 := h.zero 0 (by decide) (Or.inl rfl)
  have hmov : (machine table budget).step ⟨regs, memory, 0, steps⟩ =
      .next ⟨regs.set 0 0, memory, 1, steps + 1⟩ :=
    Machine.step_alu64Imm .mov rfl (by decide) hzero rfl
  refine ⟨_, Machine.after_eq_some_iff.mpr ⟨.single hmov, rfl⟩, ?_⟩
  refine { pc := rfl, lt := n.toNat_lt, left := ?_, sum := ?_ }
  · rw [UInt64.ofNat_toNat]
    exact (regs.get?_set_of_ne (by decide)).trans harg
  · exact ⟨0, regs.get?_set_self (by decide), UInt64.zero_add _⟩

theorem exists_exit (h : Invocation.Entered 1 [n] context s) :
    ∃ t u, (machine table budget).after (4 * n.toNat + 2) s = some t ∧
      (machine table budget).step t = .exit (triangle n.toNat) u := by
  obtain ⟨first, hfirst, hhead⟩ := exists_atHead table budget h
  obtain ⟨last, hlast, hdone⟩ :=
    Machine.exists_after_mul (fun _ _ => AtHead.round table budget) hhead
  obtain ⟨t, u, ht, hexit⟩ := hdone.exit table budget
  refine ⟨t, u, ?_, hexit⟩
  -- One instruction in front of the loop, four for each round, and the test that leaves it.
  rw [show 4 * n.toNat + 2 = 1 + (4 * n.toNat + 1) by omega, Machine.after_add, hfirst,
    Option.bind_some, Machine.after_add, hlast]
  exact ht

theorem exists_link : ∃ report, link .summation table = .ok report := by
  have hsites : Function.summation.callSites = [] := by decide
  have hentry : Program.summation.entry = .ok .summation := rfl
  rw [link_of_entry hentry, hsites]
  exact ⟨_, rfl⟩

end Summation

open Summation

/-- The program returns the sum of the numbers from its argument down to one, cut to 64 bits, if it
may execute four instructions for each of them and three more. Under any smaller budget it is
stopped. -/
theorem invoke_summation (table : HelperTable) (settings : Settings)
    (hctx : settings.context.size ≤ maxContext) (n : UInt64) :
    invoke .summation [n] table settings =
      if 4 * n.toNat + 3 ≤ settings.budget.toNat then
        .ok (some (.ofNat (n.toNat * (n.toNat + 1) / 2)))
      else .error (.fault (.stepLimitExceeded settings.budget)) := by
  have hentry : Program.summation.functions.head? = some .summation := rfl
  have hlen : Function.summation.signature.arity ≤ [n].length := Nat.le_refl 1
  obtain ⟨s, hs, hentered⟩ :=
    Invocation.exists_enter Function.summation.signature.arity_le hlen hctx
  obtain ⟨report, hlink⟩ := exists_link table
  obtain ⟨t, u, ht, hexit⟩ := exists_exit table settings.budget hentered
  have hsteps := hentered.steps
  have hinvoke : invoke .summation [n] table settings =
      ((machine table settings.budget).run s).1.map some := by
    rw [Invocation.invoke_of_le hentry hlen, hs, hlink]
    rfl
  rw [hinvoke]
  split
  · rename_i hle
    have hrun : (machine table settings.budget).run s = (.ok (triangle n.toNat), u) :=
      Machine.run_of_exit (n := settings.budget) ht hexit (by omega)
    rw [hrun]
    rfl
  · rename_i hlt
    obtain ⟨v, hv⟩ := Machine.exists_stopsAtLimit (n := settings.budget) ht (by omega)
    have hrun : (machine table settings.budget).run s =
        (.error (.fault (.stepLimitExceeded settings.budget)), v) := Machine.run_of_stopsAtLimit hv
    rw [hrun]
    rfl

/-- The budget that is just enough and the one below it, a sum that does not fit 64 bits, and an
argument for which no budget is enough. -/
theorem invoke_summation_hundred :
    invoke .summation [100] .empty {} = .ok (some 5050) ∧
    invoke .summation [100] .empty { budget := 403 } = .ok (some 5050) ∧
    invoke .summation [100] .empty { budget := 402 } = .error (.fault (.stepLimitExceeded 402)) ∧
    invoke .summation [0x200000000] .empty { budget := 0x1000000000 } = .ok (some 0x100000000) ∧
    invoke .summation [0x4000000000000000] .empty { budget := 0xffffffffffffffff } =
      .error (.fault (.stepLimitExceeded 0xffffffffffffffff)) := by
  have hempty : (#[] : Array UInt8).size ≤ maxContext := Nat.zero_le _
  refine ⟨?_, ?_, ?_, ?_, ?_⟩
  · exact (invoke_summation .empty {} hempty 100).trans (if_pos (by decide))
  · exact (invoke_summation .empty { budget := 403 } hempty 100).trans (if_pos (by decide))
  · exact (invoke_summation .empty { budget := 402 } hempty 100).trans (if_neg (by decide))
  · exact (invoke_summation .empty { budget := 0x1000000000 } hempty 0x200000000).trans
      (if_pos (by decide))
  · exact (invoke_summation .empty { budget := 0xffffffffffffffff } hempty
      0x4000000000000000).trans (if_neg (by decide))

end Ebpf
