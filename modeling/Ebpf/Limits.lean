/-! # Limits and the address map

The sizes that bound programs and machines, and where guest memory lies. The two
regions of memory are far apart, so no access can touch both.
-/

namespace Ebpf

/-- Arguments travel in R1 to R5. -/
def maxArguments : Nat := 5

/-- R0 to R10. -/
def registerCount : Nat := 11

/-- R10 holds the frame pointer and is read-only. -/
def framePointer : UInt8 := 10

/-- Instruction slots of one function. -/
def maxSlots : Nat := 4096

/-- Bytes of context memory. -/
def maxContext : Nat := 2048

/-- Bytes of stack. -/
def stackSize : Nat := 512

/-- Address of the first context byte. -/
def contextBase : Nat := 0x10000000

/-- Address of the lowest stack byte. -/
def stackBase : Nat := 0x20000000

/-- The stack grows down from here; R10 starts at this address. -/
def stackTop : UInt64 := 0x20000200

/-- Instructions a run may take unless the host says otherwise. -/
def defaultBudget : UInt64 := 1000000

end Ebpf
