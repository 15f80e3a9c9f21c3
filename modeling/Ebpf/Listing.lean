import Ebpf.Instruction.Text
import Ebpf.Program

/-! # Listings

The listing of a program has a line for each function, for each instruction and for each
declaration. A wide load takes one line, with its whole immediate.
-/

namespace Ebpf

open Text

/-- The lines of the instructions of `code` from `pc` on. A wide load whose second slot is missing
is shown like any other instruction. -/
@[semireducible]
def linesFrom (code : Array UInt64) (pc : Nat) : List String :=
  if h : pc < code.size then
    let i := Instruction.decode code[pc]
    if h : i.opcode = opLddw ∧ pc + 1 < code.size then
      let high := (Instruction.decode code[pc + 1]).imm.toUInt32.toUInt64
      let value := i.imm.toUInt32.toUInt64 ||| (high <<< 32)
      (padded 4 pc ++ " lddw " ++ Instruction.registerName i.dst ++ ", " ++ hex value.toNat)
        :: linesFrom code (pc + 2)
    else (padded 4 pc ++ " " ++ i.text) :: linesFrom code (pc + 1)
  else []
termination_by code.size - pc

def Function.heading (f : Function) : String := s!"== {f.name} {f.signature.text} =="

def Function.lines (f : Function) : List String := linesFrom f.code 0

def Function.listing (f : Function) : List String := f.heading :: f.lines

def importLine (i : UInt32 × Declaration) : String :=
  "import " ++ hex i.1.toNat ++ " " ++ i.2.name.getD "-" ++ " " ++ i.2.signature.text

def Program.listing (p : Program) : List String :=
  p.functions.flatMap (·.listing) ++ p.imports.toList.map importLine

end Ebpf
