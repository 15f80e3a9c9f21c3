import Ebpf.Signature
import Ebpf.Text.Number

/-! # Faults and traps

A fault is a failure of running code. A trap ends an invocation: it is either a fault or
one of the four failures that follow from the program, the helper table and the arguments
alone.
-/

namespace Ebpf

open Text

inductive Fault where
  | invalidOpcode (opcode : UInt8) (pc : Nat)
  | invalidRegister (reg : UInt8) (pc : Nat)
  | divisionByZero (pc : Nat)
  | outOfBounds (addr : UInt64) (len : Nat)
  | stepLimitExceeded (limit : UInt64)
  | pcOutOfRange (pc : Nat)
  | unsupportedCall (pc : Nat)
  | helperFailed (id : UInt32) (reason : String)
  | invalidTransition (detail : String)
  | contextTooLarge (size : Nat)
  deriving DecidableEq

def Fault.message : Fault → String
  | invalidOpcode opcode pc => s!"invalid opcode {hexByte opcode} at pc {pc}"
  | invalidRegister reg pc => s!"invalid register r{reg.toNat} at pc {pc}"
  | divisionByZero pc => s!"division by zero at pc {pc}"
  | outOfBounds addr len =>
    s!"memory access of {len} bytes at {hex addr.toNat} is out of bounds"
  | stepLimitExceeded limit => s!"step limit of {limit.toNat} instructions exceeded"
  | pcOutOfRange pc => s!"program counter {pc} outside of code"
  | unsupportedCall pc =>
    s!"call at pc {pc} targets a program function, only helper calls are supported"
  | helperFailed id reason => s!"helper {hex id.toNat} failed: {reason}"
  | invalidTransition detail => s!"invalid invocation transition: {detail}"
  | contextTooLarge size => s!"context memory of {size} bytes exceeds limit of {maxContext}"

inductive Trap where
  | noEntryPoint
  | arityMismatch (expected got : Nat)
  | unknownHelper (id : UInt32)
  | signatureMismatch (id : UInt32) (declared registered : Signature)
  | fault (cause : Fault)
  deriving DecidableEq

def Trap.message : Trap → String
  | noEntryPoint => "compiled unit has no entry point"
  | arityMismatch expected got => s!"entry point expects {expected} arguments, got {got}"
  | unknownHelper id => s!"unknown helper {hex id.toNat}"
  | signatureMismatch id declared registered =>
    s!"helper {hex id.toNat} declared as {declared.text}, registered as {registered.text}"
  | fault cause => s!"execution fault: {cause.message}"

instance : Coe Fault Trap := ⟨.fault⟩

end Ebpf
