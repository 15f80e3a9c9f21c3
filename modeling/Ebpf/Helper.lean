import Ebpf.Fault

/-! # Helpers

A helper is a named host function with a signature. It sees the values of its argument
registers and nothing else of the machine. Its answer is a function of them, so a host function that
answers equal calls differently, because it keeps a state or reads a clock, has no model here.
-/

namespace Ebpf

/-- A helper answers equal calls alike. -/
structure Helper where
  name : String
  signature : Signature
  call : List UInt64 → Except Fault UInt64

/-- A failure that a helper reports about itself carries the identifier it was called by;
any other failure passes unchanged. -/
def Fault.raisedBy (id : UInt32) : Fault → Fault
  | .helperFailed _ reason => .helperFailed id reason
  | other => other

end Ebpf
