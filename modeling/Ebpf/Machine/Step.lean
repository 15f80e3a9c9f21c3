import Ebpf.Machine.Alu
import Ebpf.Machine.Query
import Ebpf.Machine.State

/-! # One instruction

An instruction first queries the state and settles on one effect; the effect is then carried
out on the state behind the fetch. A helper runs in the second part, after its call has been
checked. Both parts can fail, and a failure changes neither registers nor memory.
-/

namespace Ebpf

/-- What an instruction does to the state, besides moving on to the next slot. -/
inductive Effect where
  | keep
  | write (reg : UInt8) (value : UInt64)
  /-- Writes a register and takes up the following slot. -/
  | writeWide (reg : UInt8) (value : UInt64)
  | store (addr : UInt64) (len : Nat) (value : UInt64)
  | jump (off : Int16)
  /-- Runs a helper under the identifier it was called by. -/
  | call (id : UInt32) (helper : Helper) (args : List UInt64)
  | exit (value : UInt64)

inductive Outcome where
  | next (state : State)
  | exit (value : UInt64) (state : State)
  | trap (cause : Trap) (state : State)
  deriving DecidableEq

namespace Instruction

open Query

variable (i : Instruction) (pc : Nat)

def invalid : Fault := .invalidOpcode i.opcode pc

def refuse {α : Type} : Query α := .fail (.fault (i.invalid pc))

/-- The second operand: a register, or the sign-extended immediate. -/
def operandQuery : Query UInt64 :=
  if i.usesSource then fetch (.register i.src) else return i.immediate

/-- The result of an arithmetic operation at the width of the class; 32-bit results are
zero-extended. -/
def evaluate (op : ArithmeticOp) (a b : UInt64) : Option UInt64 :=
  if i.cls = .alu64 then op.eval64 a b else (op.eval32 a.toUInt32 b.toUInt32).map (·.toUInt64)

def aluQuery : Query Effect := do
  let a ← fetch (.register i.dst)
  match i.aluOperation? with
  | none => i.refuse pc
  | some .byteOrder =>
    if i.cls = .alu then
      match changeByteOrder a i.imm i.usesSource with
      | some value => return .write i.dst value
      | none => i.refuse pc
    else i.refuse pc
  | some (.arithmetic op) =>
    if op = .neg ∧ i.usesSource then i.refuse pc
    else
      let b ← i.operandQuery
      match i.evaluate op a b with
      | some value => return .write i.dst value
      | none => .fail (.fault (.divisionByZero pc))

def taken (condition : Condition) (a b : UInt64) : Bool :=
  if i.cls = .jmp then condition.holds64 a b else condition.holds32 a.toUInt32 b.toUInt32

/-- A conditional jump reads its operands before its relation is looked at. -/
def branchQuery (condition? : Option Condition) : Query Effect := do
  let a ← fetch (.register i.dst)
  let b ← i.operandQuery
  match condition? with
  | none => i.refuse pc
  | some condition => return if i.taken condition a b then .jump i.off else .keep

/-- The address of a memory operand. -/
def address (base : UInt64) : UInt64 := base + i.offset

/-- A wide load joins its immediate with that of the following slot, whose opcode has to
be zero. -/
def wideQuery : Query Effect := do
  let high := decode (← fetch (.slot (pc + 1)))
  if high.opcode = 0 then return .writeWide i.dst (wideImmediate i high)
  else high.refuse (pc + 1)

def offsetQuery : Query UInt64 :=
  match i.mode? with
  | some .absolute => return i.immediate
  | some .indirect => do
    let base ← fetch (.register i.src)
    return base + i.immediate
  | _ => i.refuse pc

/-- Packet loads put a big-endian value of the context into R0. -/
def packetQuery : Query Effect := do
  let offset ← i.offsetQuery pc
  let value ← fetch (.packet offset i.size.bytes)
  return .write 0 value

def loadQuery : Query Effect :=
  if i.mode? = some .memory then do
    let base ← fetch (.register i.src)
    let value ← fetch (.bytes (i.address base) i.size.bytes)
    return .write i.dst value
  else i.refuse pc

def addAt (size : AccessSize) (a b : UInt64) : UInt64 :=
  if size = .word then (a.toUInt32 + b.toUInt32).toUInt64 else a + b

def storeQuery : Query Effect := do
  let base ← fetch (.register i.dst)
  let addr := i.address base
  match i.cls, i.mode? with
  | .st, some .memory => return .store addr i.size.bytes i.immediate
  | .stx, some .memory =>
    let value ← fetch (.register i.src)
    return .store addr i.size.bytes value
  | .stx, some .atomic =>
    if i.imm = 0 ∧ (i.size = .word ∨ i.size = .double) then
      let value ← fetch (.register i.src)
      let old ← fetch (.bytes addr i.size.bytes)
      return .store addr i.size.bytes (addAt i.size old value)
    else i.refuse pc
  | _, _ => i.refuse pc

end Instruction

namespace Machine

open Query Instruction

/-- The helper that a call of `id` runs: the registered one, provided that it has the
signature that the call was compiled against, if there is one. -/
def callee (m : Machine) (id : UInt32) : Except Trap Helper :=
  match m.table.get? id with
  | none => .error (.unknownHelper id)
  | some helper =>
    match m.program.declaredSignature id with
    | none => .ok helper
    | some declared =>
      if declared = helper.signature then .ok helper
      else .error (.signatureMismatch id declared helper.signature)

/-- The helper that the call `i` at `pc` runs. -/
def called (m : Machine) (i : Instruction) (pc : Nat) : Except Trap Helper :=
  if i.src ≠ 0 then .error (.fault (.unsupportedCall pc)) else m.callee i.helperId

/-- All argument registers are read, also those that the helper does not take. -/
def callQuery (m : Machine) (i : Instruction) (pc : Nat) : Query Effect := do
  let helper ← ofExcept (m.called i pc)
  let args ← fetchAll ((List.range maxArguments).map fun k => .register (.ofNat (k + 1)))
  return .call i.helperId helper (args.take helper.signature.arity)

def jumpQuery (m : Machine) (i : Instruction) (pc : Nat) : Query Effect :=
  match i.jumpOperation? with
  | some (.branch condition) => i.branchQuery pc (some condition)
  | none => i.branchQuery pc none
  | some operation =>
    if i.cls = .jmp then
      match operation with
      | .always => return .jump i.off
      | .call => m.callQuery i pc
      | _ => return .exit (← fetch (.register 0))
    else i.refuse pc

/-- How instruction `i` at `pc` settles on its effect. -/
def query (m : Machine) (i : Instruction) (pc : Nat) : Query Effect :=
  match i.cls with
  | .alu | .alu64 => i.aluQuery pc
  | .jmp | .jmp32 => m.jumpQuery i pc
  | .ld => if i.isWide then i.wideQuery pc else i.packetQuery pc
  | .ldx => i.loadQuery pc
  | .st | .stx => i.storeQuery pc

/-- What the instruction at `pc` finds at a place. -/
def answer (m : Machine) (pc : Nat) (s : State) : Place → Except Fault UInt64
  | .register reg => s.regs.read reg pc
  | .slot pc =>
    match m.code[pc]? with
    | some word => .ok word
    | none => .error (.pcOutOfRange pc)
  | .bytes addr len => s.memory.load addr len
  | .packet offset len => s.memory.loadPacket offset len

/-- The effect of instruction `i` at `pc`. -/
def effect (m : Machine) (i : Instruction) (pc : Nat) (s : State) : Except Trap Effect :=
  (m.query i pc).eval (m.answer pc s)

def writeRegister (s : State) (pc : Nat) (reg : UInt8) (value : UInt64) : Outcome :=
  if reg < framePointer then .next { s with regs := s.regs.set reg value }
  else .trap (.fault (.invalidRegister reg pc)) s

/-- Moves the program counter by `off`. The end of the code is a valid target, though no
instruction can be fetched there. -/
def jumpBy (m : Machine) (s : State) (off : Int16) : Outcome :=
  let target : Int := s.pc + off.toInt
  if target < 0 ∨ m.code.size < target then .trap (.fault (.pcOutOfRange target.toNat)) s
  else .next { s with pc := target.toNat }

/-- Runs a helper. Its result goes to R0 if it returns one. -/
def runHelper (s : State) (pc : Nat) (id : UInt32) (helper : Helper) (args : List UInt64) :
    Outcome :=
  match helper.call args with
  | .ok value => if helper.signature.returns then writeRegister s pc 0 value else .next s
  | .error fault => .trap (.fault (fault.raisedBy id)) s

/-- Carries out the effect of the instruction at `pc`, which has been fetched into `s`. -/
def commit (m : Machine) (s : State) (pc : Nat) : Effect → Outcome
  | .keep => .next s
  | .write reg value => writeRegister s pc reg value
  | .writeWide reg value => writeRegister { s with pc := s.pc + 1 } pc reg value
  | .store addr len value =>
    match s.memory.locate? addr len with
    | some (region, start) => .next { s with memory := s.memory.write region start len value }
    | none => .trap (.fault (.outOfBounds addr len)) s
  | .jump off => m.jumpBy s off
  | .call id helper args => runHelper s pc id helper args
  | .exit value => .exit value s

/-- Fetches and executes one instruction. The fetch counts it and moves the program counter
past its first slot. -/
def step (m : Machine) (s : State) : Outcome :=
  match m.code[s.pc]? with
  | none => .trap (.fault (.pcOutOfRange s.pc)) s
  | some word =>
    let i := decode word
    let fetched := { s with pc := s.pc + 1, steps := s.steps + 1 }
    match m.effect i s.pc s with
    | .ok effect => m.commit fetched s.pc effect
    | .error cause => .trap cause fetched

end Machine

end Ebpf
