import Ebpf.Container.Layout

/-! # Flat binaries

A flat binary is the code of one function and nothing else. Its name and its signature come
from the host.
-/

namespace Ebpf.Container

def flatEntryName : String := "entry"

/-- The little-endian words of `bytes`; bytes behind the last whole word are dropped. -/
def wordsOf : List UInt8 → List UInt64
  | b0 :: b1 :: b2 :: b3 :: b4 :: b5 :: b6 :: b7 :: rest =>
    UInt64.ofNat (Bytes.toNat [b0, b1, b2, b3, b4, b5, b6, b7]) :: wordsOf rest
  | _ => []

def readFlat (bytes : List UInt8) (signature : Signature) : Except Error Program := do
  if bytes.length % 8 ≠ 0 then throw (.partialWord bytes.length)
  let slots := bytes.length / 8
  if maxSlots < slots then throw (.flatTooLarge slots)
  let entry : Function := { name := flatEntryName, signature, code := (wordsOf bytes).toArray }
  match Program.single entry with
  | .ok program => return program
  | .error e => throw (.program e)

end Ebpf.Container
