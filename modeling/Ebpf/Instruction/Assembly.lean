import Ebpf.Instruction.Opcode

/-! # Assembling instruction words

One builder per form of instruction, as a compiler back end emits them. Operation and size
arguments are the opcode bits themselves.
-/

namespace Ebpf.Assembly

def sourceBit : UInt8 := 0x08

def word (opcode dst src : UInt8) (off : Int16) (imm : Int32) : UInt64 :=
  Instruction.encode { opcode, dst, src, off, imm }

def alu64Imm (op dst : UInt8) (imm : Int32) : UInt64 :=
  word (InstructionClass.alu64.bits ||| op) dst 0 0 imm

def alu64Reg (op dst src : UInt8) : UInt64 :=
  word (InstructionClass.alu64.bits ||| op ||| sourceBit) dst src 0 0

def alu32Imm (op dst : UInt8) (imm : Int32) : UInt64 :=
  word (InstructionClass.alu.bits ||| op) dst 0 0 imm

def alu32Reg (op dst src : UInt8) : UInt64 :=
  word (InstructionClass.alu.bits ||| op ||| sourceBit) dst src 0 0

def mov64Imm (dst : UInt8) (imm : Int32) : UInt64 := alu64Imm ArithmeticOp.mov.bits dst imm

def mov64Reg (dst src : UInt8) : UInt64 := alu64Reg ArithmeticOp.mov.bits dst src

def add64Imm (dst : UInt8) (imm : Int32) : UInt64 := alu64Imm ArithmeticOp.add.bits dst imm

def add64Reg (dst src : UInt8) : UInt64 := alu64Reg ArithmeticOp.add.bits dst src

/-- Byte swap within `bits` (big) or truncation to `bits` (little). -/
def endian (dst : UInt8) (bits : Int32) (big : Bool) : UInt64 :=
  word (InstructionClass.alu.bits ||| 0xd0 ||| if big then sourceBit else 0) dst 0 0 bits

def jmpImm (op dst : UInt8) (imm : Int32) (off : Int16) : UInt64 :=
  word (InstructionClass.jmp.bits ||| op) dst 0 off imm

def jmpReg (op dst src : UInt8) (off : Int16) : UInt64 :=
  word (InstructionClass.jmp.bits ||| op ||| sourceBit) dst src off 0

def jmp32Imm (op dst : UInt8) (imm : Int32) (off : Int16) : UInt64 :=
  word (InstructionClass.jmp32.bits ||| op) dst 0 off imm

def ja (off : Int16) : UInt64 := word InstructionClass.jmp.bits 0 0 off 0

def call (id : UInt32) : UInt64 := word opCall 0 0 0 id.toInt32

def exit : UInt64 := word opExit 0 0 0 0

def lddw (dst : UInt8) (value : UInt64) : List UInt64 :=
  [word opLddw dst 0 0 value.toUInt32.toInt32, word 0 0 0 0 (value >>> 32).toUInt32.toInt32]

def ldabs (size : UInt8) (imm : Int32) : UInt64 :=
  word (InstructionClass.ld.bits ||| AccessMode.absolute.bits ||| size) 0 0 0 imm

def ldind (size src : UInt8) (imm : Int32) : UInt64 :=
  word (InstructionClass.ld.bits ||| AccessMode.indirect.bits ||| size) 0 src 0 imm

def ldx (size dst src : UInt8) (off : Int16) : UInt64 :=
  word (InstructionClass.ldx.bits ||| AccessMode.memory.bits ||| size) dst src off 0

def stx (size dst : UInt8) (off : Int16) (src : UInt8) : UInt64 :=
  word (InstructionClass.stx.bits ||| AccessMode.memory.bits ||| size) dst src off 0

def st (size dst : UInt8) (off : Int16) (imm : Int32) : UInt64 :=
  word (InstructionClass.st.bits ||| AccessMode.memory.bits ||| size) dst 0 off imm

def xadd (size dst : UInt8) (off : Int16) (src : UInt8) : UInt64 :=
  word (InstructionClass.stx.bits ||| AccessMode.atomic.bits ||| size) dst src off 0

end Ebpf.Assembly
