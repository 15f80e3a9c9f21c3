import Ebpf.Fault

/-! # Guest memory

The context bytes that the host supplies, and a stack of fixed size. Ordinary accesses are
little-endian and reach both regions; packet loads are big-endian and reach the context
only. An access lies in one region or is refused.
-/

namespace Ebpf

structure Memory where
  context : Array UInt8
  stack : Array UInt8
  context_le : context.size ≤ maxContext
  stack_size : stack.size = stackSize
  deriving DecidableEq

def readLittle (bytes : Array UInt8) (start : Nat) : Nat → UInt64
  | 0 => 0
  | len + 1 => (bytes.getD start 0).toUInt64 + 256 * readLittle bytes (start + 1) len

/-- The `len` bytes from `start` as a big-endian number behind the digits `high`. -/
def readBig (bytes : Array UInt8) (start : Nat) : Nat → UInt64 → UInt64
  | 0, high => high
  | len + 1, high =>
    readBig bytes (start + 1) len (high * 256 + (bytes.getD start 0).toUInt64)

/-- Puts the low `len` bytes of `value` at `start`, lowest first. -/
def writeLittle (bytes : Array UInt8) (start : Nat) : Nat → UInt64 → Array UInt8
  | 0, _ => bytes
  | len + 1, value =>
    writeLittle (bytes.setIfInBounds start value.toUInt8) (start + 1) len (value >>> 8)

@[simp] theorem size_writeLittle (bytes : Array UInt8) (start len : Nat) (value : UInt64) :
    (writeLittle bytes start len value).size = bytes.size := by
  induction len generalizing bytes start value with
  | zero => rfl
  | succ len ih => simp [writeLittle, ih]

inductive Region where
  | context
  | stack
  deriving DecidableEq, Repr

namespace Memory

def withContext (context : Array UInt8) : Except Fault Memory :=
  if h : context.size ≤ maxContext then
    .ok { context, stack := Array.replicate stackSize 0, context_le := h,
          stack_size := Array.size_replicate }
  else .error (.contextTooLarge context.size)

/-- The region that holds all of the `len` bytes from `addr`, and where in it they start. -/
def locate? (m : Memory) (addr : UInt64) (len : Nat) : Option (Region × Nat) :=
  let a := addr.toNat
  if contextBase ≤ a ∧ a + len ≤ contextBase + m.context.size then
    some (.context, a - contextBase)
  else if stackBase ≤ a ∧ a + len ≤ stackBase + stackSize then some (.stack, a - stackBase)
  else none

def load (m : Memory) (addr : UInt64) (len : Nat) : Except Fault UInt64 :=
  match m.locate? addr len with
  | some (.context, start) => .ok (readLittle m.context start len)
  | some (.stack, start) => .ok (readLittle m.stack start len)
  | none => .error (.outOfBounds addr len)

/-- Reads the context big-endian, `offset` bytes from its start. -/
def loadPacket (m : Memory) (offset : UInt64) (len : Nat) : Except Fault UInt64 :=
  if offset.toNat + len ≤ m.context.size then .ok (readBig m.context offset.toNat len 0)
  else .error (.outOfBounds (UInt64.ofNat contextBase + offset) len)

def write (m : Memory) (region : Region) (start len : Nat) (value : UInt64) : Memory :=
  match region with
  | .context =>
    { m with context := writeLittle m.context start len value
             context_le := by simpa using m.context_le }
  | .stack =>
    { m with stack := writeLittle m.stack start len value
             stack_size := by simpa using m.stack_size }

def store (m : Memory) (addr : UInt64) (len : Nat) (value : UInt64) : Except Fault Memory :=
  match m.locate? addr len with
  | some (region, start) => .ok (m.write region start len value)
  | none => .error (.outOfBounds addr len)

/-- The stack's 8-byte cells below `stackTop` that are not zero, from the top down, each
with its offset from `stackTop`. -/
def usedCells (m : Memory) : List (Int × UInt64) :=
  (List.range (stackSize / 8)).filterMap fun k =>
    let value := readLittle m.stack (stackSize - 8 * (k + 1)) 8
    if value = 0 then none else some (-(8 * (k + 1) : Nat), value)

end Memory

end Ebpf
