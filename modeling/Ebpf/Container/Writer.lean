import Ebpf.Container.Layout

/-! # Writing containers

A program is written only if it keeps every limit that reading enforces, so a written
container always loads back.
-/

namespace Ebpf.Container

def checkName (name : String) : Except Error Unit :=
  if maxNameLength < name.utf8ByteSize then .error (.longName name) else .ok ()

/-- The limits of the container format that programs themselves do not have. -/
def checkLimits (p : Program) : Except Error Unit := do
  if maxFunctions < p.functions.length then throw (.tooManyFunctions p.functions.length)
  p.functions.forM fun f => checkName f.name
  if maxImports < p.imports.size then throw (.tooManyImports p.imports.size)
  p.imports.toList.forM fun i => checkName (i.2.name.getD "")

/-- The layout of a program: its declarations stand in the order of their identifiers. -/
def layoutOf (p : Program) : Layout := ⟨p.functions, p.imports.toList⟩

def write (p : Program) : Except Error (List UInt8) := do
  checkLimits p
  return (layoutOf p).bytes

end Ebpf.Container
