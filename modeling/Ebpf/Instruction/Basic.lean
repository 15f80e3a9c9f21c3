/-! # Instruction words

An instruction is one 64-bit word. From the low end it holds the opcode (8 bits), the
destination and source registers (4 bits each), a signed offset (16 bits) and a signed
immediate (32 bits). `decode` and `encode` are inverse to each other on words.
-/

namespace Ebpf

/-- The five fields of one instruction word. -/
structure Instruction where
  opcode : UInt8
  dst : UInt8
  src : UInt8
  off : Int16
  imm : Int32
  deriving DecidableEq, Repr

namespace Instruction

def decode (word : UInt64) : Instruction where
  opcode := word.toUInt8
  dst := (word >>> 8).toUInt8 &&& 0x0f
  src := (word >>> 12).toUInt8 &&& 0x0f
  off := (word >>> 16).toUInt16.toInt16
  imm := (word >>> 32).toUInt32.toInt32

/-- Only the low four bits of a register number fit into the word. -/
def encode (i : Instruction) : UInt64 :=
  i.opcode.toUInt64
    ||| ((i.dst &&& 0x0f).toUInt64 <<< 8)
    ||| ((i.src &&& 0x0f).toUInt64 <<< 12)
    ||| (i.off.toUInt16.toUInt64 <<< 16)
    ||| (i.imm.toUInt32.toUInt64 <<< 32)

/-- The immediate, sign-extended to a full word. -/
def immediate (i : Instruction) : UInt64 := i.imm.toInt64.toUInt64

/-- The offset, sign-extended to a full word. -/
def offset (i : Instruction) : UInt64 := i.off.toInt64.toUInt64

/-- The immediate of a call, read as the identifier of a helper. -/
def helperId (i : Instruction) : UInt32 := i.imm.toUInt32

end Instruction

end Ebpf
