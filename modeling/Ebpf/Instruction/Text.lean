import Ebpf.Instruction.Opcode
import Ebpf.Text.Number

/-! # Instruction text

The mnemonic of an instruction and its one-line rendering. A wide load is rendered here
with the half of its immediate that its own slot holds.
-/

namespace Ebpf.Instruction

open Text

def mnemonic (i : Instruction) : String :=
  match i.cls with
  | .alu | .alu64 =>
    match i.aluOperation? with
    | some (.arithmetic op) => if i.cls = .alu64 then op.name else op.name ++ "32"
    | some .byteOrder => if i.usesSource then "be" else "le"
    | none => "unknown"
  | .jmp | .jmp32 =>
    match i.jumpOperation? with
    | some .always => "ja"
    | some .call => "call"
    | some .exit => "exit"
    | some (.branch condition) => condition.name
    | none => "unknown"
  | .ld =>
    if i.isWide then "lddw"
    else match i.mode? with
      | some .absolute => "ldabs"
      | some .indirect => "ldind"
      | _ => "unknown"
  | .ldx => "ldx"
  | .st => "st"
  | .stx => if i.mode? = some .atomic then "xadd" else "stx"

def registerName (r : UInt8) : String := "r" ++ toString r.toNat

def operandText (i : Instruction) : String :=
  if i.usesSource then registerName i.src else toString i.imm.toInt

def addressText (base : UInt8) (off : Int16) : String :=
  "[" ++ registerName base ++ signed off.toInt ++ "]"

def aluText (i : Instruction) : String :=
  match i.aluOperation? with
  | some (.arithmetic .neg) => i.mnemonic ++ " " ++ registerName i.dst
  | some .byteOrder => i.mnemonic ++ toString i.imm.toInt ++ " " ++ registerName i.dst
  | _ => i.mnemonic ++ " " ++ registerName i.dst ++ ", " ++ i.operandText

def jumpText (i : Instruction) : String :=
  match i.jumpOperation? with
  | some .always => "ja " ++ signed i.off.toInt
  | some .call =>
    if i.src = 1 then "call pc" ++ signed i.imm.toInt else "call " ++ hex i.helperId.toNat
  | some .exit => "exit"
  | _ =>
    i.mnemonic ++ (if i.cls = .jmp32 then "32" else "") ++ " " ++ registerName i.dst ++ ", "
      ++ i.operandText ++ ", " ++ signed i.off.toInt

def unknownText (i : Instruction) : String := "unknown " ++ hexByte i.opcode

def packetLoadText (i : Instruction) : String :=
  if i.isWide then "lddw " ++ registerName i.dst ++ ", " ++ hex i.imm.toUInt32.toNat
  else match i.mode? with
    | some .absolute => i.mnemonic ++ i.size.suffix ++ " " ++ toString i.imm.toInt
    | some .indirect =>
      i.mnemonic ++ i.size.suffix ++ " " ++ registerName i.src ++ ", " ++ toString i.imm.toInt
    | _ => i.unknownText

def text (i : Instruction) : String :=
  match i.cls with
  | .alu | .alu64 => i.aluText
  | .jmp | .jmp32 => i.jumpText
  | .ld => i.packetLoadText
  | .ldx =>
    "ldx" ++ i.size.suffix ++ " " ++ registerName i.dst ++ ", " ++ addressText i.src i.off
  | .st =>
    "st" ++ i.size.suffix ++ " " ++ addressText i.dst i.off ++ ", " ++ toString i.imm.toInt
  | .stx =>
    i.mnemonic ++ i.size.suffix ++ " " ++ addressText i.dst i.off ++ ", " ++ registerName i.src

end Ebpf.Instruction
