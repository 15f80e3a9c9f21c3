import Ebpf.Machine.Step

/-! # Runs

A run executes instructions until the program exits, a trap is raised or the budget is
used up. A run that stopped can be taken up again from the state it left behind.
-/

namespace Ebpf.Machine

/-- Executes at most `fuel` instructions and then reports that the budget is used up. -/
def runFor (m : Machine) : Nat → State → Except Trap UInt64 × State
  | 0, s => (.error (.fault (.stepLimitExceeded m.budget)), s)
  | fuel + 1, s =>
    match m.step s with
    | .next s' => m.runFor fuel s'
    | .exit value s' => (.ok value, s')
    | .trap cause s' => (.error cause, s')

/-- Runs from `s` with what its step counter leaves of the budget. The result is R0 when
the program exits. -/
def run (m : Machine) (s : State) : Except Trap UInt64 × State :=
  m.runFor (m.budget.toNat - s.steps) s

end Ebpf.Machine
