import Ebpf.HelperTable
import Ebpf.Machine.Memory
import Ebpf.Machine.Registers
import Ebpf.Program

/-! # Machines and their states

A machine is what stays fixed during a run: the program, the helper table, the entry
function and the budget of instructions. A state is what instructions change.
-/

namespace Ebpf

/-- What the host decides about one invocation. -/
structure Settings where
  /-- Instructions that may be executed. -/
  budget : UInt64 := defaultBudget
  context : Array UInt8 := #[]
  deriving DecidableEq

structure Machine where
  program : Program
  table : HelperTable
  entry : Function
  budget : UInt64

def Machine.code (m : Machine) : Array UInt64 := m.entry.code

structure State where
  regs : Registers
  memory : Memory
  pc : Nat
  /-- Instructions counted so far. -/
  steps : Nat
  deriving DecidableEq

namespace State

def initial (memory : Memory) : State :=
  { regs := .initial stackTop, memory, pc := 0, steps := 0 }

/-- Writes argument `index`, counted from 0, into its register. -/
def setArgument (s : State) (index : Nat) (value : UInt64) : Except Fault State :=
  if index < maxArguments then
    .ok { s with regs := s.regs.set (UInt8.ofNat (index + 1)) value }
  else .error (.invalidRegister (UInt8.ofNat (index + 1)) s.pc)

end State

/-- A machine at the entry point of `program`, with its first state. -/
def Machine.start (program : Program) (table : HelperTable) (settings : Settings) :
    Except Trap (Machine × State) := do
  let entry ← program.entry
  match Memory.withContext settings.context with
  | .ok memory => return ({ program, table, entry, budget := settings.budget }, .initial memory)
  | .error fault => throw (.fault fault)

end Ebpf
