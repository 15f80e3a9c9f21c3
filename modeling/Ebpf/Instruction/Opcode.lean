import Ebpf.Instruction.Basic

/-! # Opcodes

The low three bits of an opcode name its class. Arithmetic and jump opcodes add an
operation in the high four bits and a source bit; loads and stores add a mode in the high
three bits and an access size in two.
-/

namespace Ebpf

inductive InstructionClass where
  | ld | ldx | st | stx | alu | jmp | jmp32 | alu64
  deriving DecidableEq, Repr

namespace InstructionClass

def bits : InstructionClass → UInt8
  | ld => 0 | ldx => 1 | st => 2 | stx => 3 | alu => 4 | jmp => 5 | jmp32 => 6 | alu64 => 7

def ofOpcode (opcode : UInt8) : InstructionClass :=
  match opcode &&& 0x07 with
  | 0 => ld
  | 1 => ldx
  | 2 => st
  | 3 => stx
  | 4 => alu
  | 5 => jmp
  | 6 => jmp32
  | _ => alu64

end InstructionClass

inductive ArithmeticOp where
  | add | sub | mul | div | or | and | lsh | rsh | neg | mod | xor | mov | arsh
  deriving DecidableEq, Repr

namespace ArithmeticOp

def bits : ArithmeticOp → UInt8
  | add => 0x00 | sub => 0x10 | mul => 0x20 | div => 0x30 | or => 0x40 | and => 0x50
  | lsh => 0x60 | rsh => 0x70 | neg => 0x80 | mod => 0x90 | xor => 0xa0 | mov => 0xb0
  | arsh => 0xc0

def name : ArithmeticOp → String
  | add => "add" | sub => "sub" | mul => "mul" | div => "div" | or => "or" | and => "and"
  | lsh => "lsh" | rsh => "rsh" | neg => "neg" | mod => "mod" | xor => "xor" | mov => "mov"
  | arsh => "arsh"

end ArithmeticOp

/-- What an arithmetic opcode asks for: an operation, or a change of byte order. -/
inductive AluOperation where
  | arithmetic (op : ArithmeticOp)
  | byteOrder
  deriving DecidableEq, Repr

def AluOperation.ofBits? (operation : UInt8) : Option AluOperation :=
  match operation with
  | 0x00 => some (.arithmetic .add)
  | 0x10 => some (.arithmetic .sub)
  | 0x20 => some (.arithmetic .mul)
  | 0x30 => some (.arithmetic .div)
  | 0x40 => some (.arithmetic .or)
  | 0x50 => some (.arithmetic .and)
  | 0x60 => some (.arithmetic .lsh)
  | 0x70 => some (.arithmetic .rsh)
  | 0x80 => some (.arithmetic .neg)
  | 0x90 => some (.arithmetic .mod)
  | 0xa0 => some (.arithmetic .xor)
  | 0xb0 => some (.arithmetic .mov)
  | 0xc0 => some (.arithmetic .arsh)
  | 0xd0 => some .byteOrder
  | _ => none

/-- Relations a conditional jump can test; the signed ones begin with `s`, and `set` asks
for a common bit. -/
inductive Condition where
  | eq | gt | ge | set | ne | sgt | sge | lt | le | slt | sle
  deriving DecidableEq, Repr

namespace Condition

def bits : Condition → UInt8
  | eq => 0x10 | gt => 0x20 | ge => 0x30 | set => 0x40 | ne => 0x50 | sgt => 0x60
  | sge => 0x70 | lt => 0xa0 | le => 0xb0 | slt => 0xc0 | sle => 0xd0

def name : Condition → String
  | eq => "jeq" | gt => "jgt" | ge => "jge" | set => "jset" | ne => "jne" | sgt => "jsgt"
  | sge => "jsge" | lt => "jlt" | le => "jle" | slt => "jslt" | sle => "jsle"

end Condition

inductive JumpOperation where
  | always
  | call
  | exit
  | branch (condition : Condition)
  deriving DecidableEq, Repr

def JumpOperation.ofBits? (operation : UInt8) : Option JumpOperation :=
  match operation with
  | 0x00 => some .always
  | 0x10 => some (.branch .eq)
  | 0x20 => some (.branch .gt)
  | 0x30 => some (.branch .ge)
  | 0x40 => some (.branch .set)
  | 0x50 => some (.branch .ne)
  | 0x60 => some (.branch .sgt)
  | 0x70 => some (.branch .sge)
  | 0x80 => some .call
  | 0x90 => some .exit
  | 0xa0 => some (.branch .lt)
  | 0xb0 => some (.branch .le)
  | 0xc0 => some (.branch .slt)
  | 0xd0 => some (.branch .sle)
  | _ => none

/-- How many bytes a load or store moves. -/
inductive AccessSize where
  | word | half | byte | double
  deriving DecidableEq, Repr

namespace AccessSize

def bits : AccessSize → UInt8
  | word => 0x00 | half => 0x08 | byte => 0x10 | double => 0x18

def ofOpcode (opcode : UInt8) : AccessSize :=
  match opcode &&& 0x18 with
  | 0x00 => word
  | 0x08 => half
  | 0x10 => byte
  | _ => double

def bytes : AccessSize → Nat
  | word => 4 | half => 2 | byte => 1 | double => 8

def suffix : AccessSize → String
  | word => "w" | half => "h" | byte => "b" | double => "dw"

end AccessSize

inductive AccessMode where
  | immediate | absolute | indirect | memory | atomic
  deriving DecidableEq, Repr

namespace AccessMode

def bits : AccessMode → UInt8
  | immediate => 0x00 | absolute => 0x20 | indirect => 0x40 | memory => 0x60 | atomic => 0xc0

def ofBits? (mode : UInt8) : Option AccessMode :=
  match mode with
  | 0x00 => some immediate
  | 0x20 => some absolute
  | 0x40 => some indirect
  | 0x60 => some memory
  | 0xc0 => some atomic
  | _ => none

end AccessMode

/-- The opcode of the wide load, which takes two slots. -/
def opLddw : UInt8 := 0x18

/-- The opcode of a helper call. -/
def opCall : UInt8 := 0x85

def opExit : UInt8 := 0x95

namespace Instruction

def cls (i : Instruction) : InstructionClass := .ofOpcode i.opcode

/-- Does the second operand come from a register instead of the immediate? -/
def usesSource (i : Instruction) : Bool := i.opcode &&& 0x08 != 0

def operation (i : Instruction) : UInt8 := i.opcode &&& 0xf0

def modeBits (i : Instruction) : UInt8 := i.opcode &&& 0xe0

def aluOperation? (i : Instruction) : Option AluOperation := AluOperation.ofBits? i.operation

def jumpOperation? (i : Instruction) : Option JumpOperation := JumpOperation.ofBits? i.operation

def size (i : Instruction) : AccessSize := .ofOpcode i.opcode

def mode? (i : Instruction) : Option AccessMode := AccessMode.ofBits? i.modeBits

/-- A wide load, whose immediate continues in the next slot. -/
def isWide (i : Instruction) : Bool := i.opcode == opLddw

/-- The number of slots that an instruction takes. -/
def width (i : Instruction) : Nat := if i.isWide then 2 else 1

theorem width_pos (i : Instruction) : 0 < i.width := by
  unfold width
  split <;> decide

/-- A call with source field 0 names a helper; any other source field is refused. -/
def isHelperCall (i : Instruction) : Bool := i.opcode == opCall && i.src == 0

/-- The 64-bit immediate that a wide load spreads over two slots. -/
def wideImmediate (low high : Instruction) : UInt64 :=
  low.imm.toUInt32.toUInt64 ||| (high.imm.toUInt32.toUInt64 <<< 32)

end Instruction

end Ebpf
