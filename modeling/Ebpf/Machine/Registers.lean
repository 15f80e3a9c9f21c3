import Ebpf.Fault

/-! # Registers

R0 holds results, R1 to R5 arguments, R6 to R9 scratch values, and R10 the frame pointer,
which no instruction changes.
-/

namespace Ebpf

structure Registers where
  values : Vector UInt64 registerCount
  deriving DecidableEq

namespace Registers

/-- All registers zero but the frame pointer. -/
def initial (fp : UInt64) : Registers :=
  ⟨(Vector.replicate registerCount 0).set 10 fp (by decide)⟩

def get? (r : Registers) (reg : UInt8) : Option UInt64 := r.values[reg.toNat]?

theorem lt_registerCount {reg : UInt8} (h : reg < framePointer) :
    reg.toNat < registerCount := by
  have : reg.toNat < framePointer.toNat := UInt8.lt_iff_toNat_lt.1 h
  exact Nat.lt_of_lt_of_le this (by decide)

/-- Writes a general register; the frame pointer and registers that do not exist stay as
they are. -/
def set (r : Registers) (reg : UInt8) (value : UInt64) : Registers :=
  if h : reg < framePointer then ⟨r.values.set reg.toNat value (lt_registerCount h)⟩ else r

def set? (r : Registers) (reg : UInt8) (value : UInt64) : Option Registers :=
  if reg < framePointer then some (r.set reg value) else none

def read (r : Registers) (reg : UInt8) (pc : Nat) : Except Fault UInt64 :=
  match r.get? reg with
  | some value => .ok value
  | none => .error (.invalidRegister reg pc)

def arguments (r : Registers) (n : Nat) : List UInt64 :=
  (List.range n).map fun i => r.values.toArray.getD (i + 1) 0

end Registers

end Ebpf
