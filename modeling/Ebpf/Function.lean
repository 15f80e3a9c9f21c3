import Ebpf.Instruction.Opcode
import Ebpf.Signature

/-! # Functions and their call sites

A function is a name, a signature and its instruction words.
-/

namespace Ebpf

structure Function where
  name : String
  signature : Signature
  code : Array UInt64
  deriving DecidableEq

/-- A call that the linear scan finds. -/
structure CallSite where
  pc : Nat
  id : UInt32
  /-- The source field asks for something other than a helper. -/
  pseudo : Bool
  deriving DecidableEq, Repr

/-- The calls of `code` from `pc` on. The second slot of a wide load holds no instruction; it is
stepped over even if the code ends in front of it. -/
@[semireducible]
def callSitesFrom (code : Array UInt64) (pc : Nat) : List CallSite :=
  if h : pc < code.size then
    let i := Instruction.decode code[pc]
    let later := callSitesFrom code (pc + if i.opcode = opLddw then 2 else 1)
    if i.opcode = opCall then ⟨pc, i.helperId, i.src != 0⟩ :: later else later
  else []
termination_by code.size - pc
decreasing_by split <;> omega

def Function.callSites (f : Function) : List CallSite := callSitesFrom f.code 0

end Ebpf
