import Ebpf.Container.Writer

/-! # Saving to an output

A program is saved piece by piece to an output that takes all bytes. Counts and lengths are cut to
the width of their field, and nothing is taken back: what is put before an error stays.
-/

namespace Ebpf.Container

/-- What is done to an output, which can fail. -/
abbrev Output := ExceptT Error (StateM (List UInt8))

namespace Output

def put (bytes : List UInt8) : Output Unit := modify (· ++ bytes)

/-- A count or a length in 16 bits. -/
def short (n : Nat) : Output Unit := put (Bytes.ofNat 2 (UInt16.ofNat n).toNat)

/-- A count in 32 bits. -/
def long (n : Nat) : Output Unit := put (Bytes.ofNat 4 (UInt32.ofNat n).toNat)

def name (text : String) : Output Unit := do
  short text.utf8ByteSize
  put (Bytes.ofString text)

def signature (s : Signature) : Output Unit := do
  put [UInt8.ofNat s.arity]
  put [UInt8.ofNat s.returnArity]

def function (f : Function) : Output Unit := do
  name f.name
  signature f.signature
  long f.code.size
  f.code.toList.forM fun word => put (Bytes.ofWord word)

def declaration (i : UInt32 × Declaration) : Output Unit := do
  put (Bytes.ofNat 4 i.1.toNat)
  signature i.2.signature
  name (i.2.name.getD "")

def layout (l : Layout) : Output Unit := do
  put magic
  short l.functions.length
  l.functions.forM function
  short l.imports.length
  l.imports.forM declaration

def program (p : Program) : Output Unit := do
  MonadExcept.ofExcept (checkLimits p)
  layout (layoutOf p)

end Output

def save (p : Program) (output : List UInt8) : Except Error Unit × List UInt8 :=
  (Output.program p).run.run output

end Ebpf.Container
