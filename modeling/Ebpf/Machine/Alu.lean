import Ebpf.Instruction.Opcode

/-! # Arithmetic

The arithmetic operations on 64-bit and on 32-bit operands, and changes of byte order.
Results wrap around, shift amounts are taken modulo the width, and a division by zero has
no result.
-/

namespace Ebpf

namespace ArithmeticOp

def eval64 (op : ArithmeticOp) (a b : UInt64) : Option UInt64 :=
  match op with
  | .add => some (a + b)
  | .sub => some (a - b)
  | .mul => some (a * b)
  | .div => if b = 0 then none else some (a / b)
  | .or => some (a ||| b)
  | .and => some (a &&& b)
  | .lsh => some (a <<< b)
  | .rsh => some (a >>> b)
  | .neg => some (-a)
  | .mod => if b = 0 then none else some (a % b)
  | .xor => some (a ^^^ b)
  | .mov => some b
  | .arsh => some (a.toInt64 >>> b.toInt64).toUInt64

def eval32 (op : ArithmeticOp) (a b : UInt32) : Option UInt32 :=
  match op with
  | .add => some (a + b)
  | .sub => some (a - b)
  | .mul => some (a * b)
  | .div => if b = 0 then none else some (a / b)
  | .or => some (a ||| b)
  | .and => some (a &&& b)
  | .lsh => some (a <<< b)
  | .rsh => some (a >>> b)
  | .neg => some (-a)
  | .mod => if b = 0 then none else some (a % b)
  | .xor => some (a ^^^ b)
  | .mov => some b
  | .arsh => some (a.toInt32 >>> b.toInt32).toUInt32

end ArithmeticOp

/-- The low `len` bytes of `value` in reverse order, behind the digits `high`. -/
def reverseBytes : Nat → UInt64 → UInt64 → UInt64
  | 0, _, high => high
  | len + 1, value, high => reverseBytes len (value >>> 8) (high * 256 + value % 256)

/-- Cuts `value` to `bits` bits and, if `big`, reverses the bytes within them. Only the
widths 16, 32 and 64 exist. -/
def changeByteOrder (value : UInt64) (bits : Int32) (big : Bool) : Option UInt64 :=
  if bits = 16 then some (if big then reverseBytes 2 value 0 else value &&& 0xffff)
  else if bits = 32 then some (if big then reverseBytes 4 value 0 else value &&& 0xffffffff)
  else if bits = 64 then some (if big then reverseBytes 8 value 0 else value)
  else none

namespace Condition

def holds64 (condition : Condition) (a b : UInt64) : Bool :=
  match condition with
  | .eq => a == b
  | .gt => a > b
  | .ge => a ≥ b
  | .set => a &&& b != 0
  | .ne => a != b
  | .sgt => a.toInt64 > b.toInt64
  | .sge => a.toInt64 ≥ b.toInt64
  | .lt => a < b
  | .le => a ≤ b
  | .slt => a.toInt64 < b.toInt64
  | .sle => a.toInt64 ≤ b.toInt64

def holds32 (condition : Condition) (a b : UInt32) : Bool :=
  match condition with
  | .eq => a == b
  | .gt => a > b
  | .ge => a ≥ b
  | .set => a &&& b != 0
  | .ne => a != b
  | .sgt => a.toInt32 > b.toInt32
  | .sge => a.toInt32 ≥ b.toInt32
  | .lt => a < b
  | .le => a ≤ b
  | .slt => a.toInt32 < b.toInt32
  | .sle => a.toInt32 ≤ b.toInt32

end Condition

end Ebpf
