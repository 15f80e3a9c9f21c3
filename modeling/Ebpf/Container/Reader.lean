import Ebpf.Container.Layout

/-! # Reading containers

A reader takes bytes from the front of its input and leaves the rest. Each count and
length is checked against its limit before anything behind it is read.
-/

namespace Ebpf.Container

abbrev Reader (α : Type) := StateT (List UInt8) (Except Error) α

def splitBytes : Nat → List UInt8 → Option (List UInt8 × List UInt8)
  | 0, bytes => some ([], bytes)
  | _ + 1, [] => none
  | n + 1, b :: bytes => (splitBytes n bytes).map fun (taken, rest) => (b :: taken, rest)

namespace Reader

def bytes (n : Nat) : Reader (List UInt8) := fun input =>
  match splitBytes n input with
  | some (taken, rest) => .ok (taken, rest)
  | none => .error .endOfData

def number (n : Nat) : Reader Nat := do return Bytes.toNat (← bytes n)

def byte : Reader UInt8 := do return UInt8.ofNat (← number 1)

def word : Reader UInt64 := do return UInt64.ofNat (← number 8)

def times {α : Type} (n : Nat) (item : Reader α) : Reader (List α) :=
  match n with
  | 0 => return []
  | n + 1 => do
    let first ← item
    let rest ← times n item
    return first :: rest

def name : Reader String := do
  let length ← number 2
  if maxNameLength < length then throw (.nameTooLong length)
  match Bytes.toString? (← bytes length) with
  | some name => return name
  | none => throw .nameNotText

def signature : Reader Signature := do
  let arity ← byte
  let flag ← byte
  if 1 < flag then throw (.badReturns flag)
  match Signature.ofArity arity.toNat (flag == 1) with
  | .ok s => return s
  | .error e => throw (.program e)

def function : Reader Function := do
  let name ← name
  let signature ← signature
  let slots ← number 4
  if maxSlots < slots then throw (.tooManySlots name slots)
  let words ← times slots word
  return { name, signature, code := words.toArray }

/-- A declaration; one with the empty name is unnamed. -/
def declaration : Reader (UInt32 × Declaration) := do
  let id ← number 4
  let signature ← signature
  let name ← name
  return (UInt32.ofNat id, { name := if name.isEmpty then none else some name, signature })

def layout : Reader Layout := do
  if (← bytes 4) ≠ magic then throw .badMagic
  let functionCount ← number 2
  if maxFunctions < functionCount then throw (.tooManyFunctions functionCount)
  let functions ← times functionCount function
  let importCount ← number 2
  if maxImports < importCount then throw (.tooManyImports importCount)
  let imports ← times importCount declaration
  return { functions, imports }

end Reader

/-- Reads a program from the front of `input`; the second result is what was not read. -/
def read (input : List UInt8) : Except Error (Program × List UInt8) := do
  let (layout, rest) ← Reader.layout.run input
  match Program.build layout.functions layout.imports with
  | .ok program => return (program, rest)
  | .error e => throw (.program e)

end Ebpf.Container
