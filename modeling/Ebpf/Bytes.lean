/-! # Bytes of words

Little-endian byte lists of fixed-width numbers, and text as UTF-8.
-/

namespace Ebpf.Bytes

/-- The low `len` bytes of `n`, lowest first. -/
def ofNat : Nat → Nat → List UInt8
  | 0, _ => []
  | len + 1, n => UInt8.ofNat n :: ofNat len (n / 256)

/-- The number whose bytes, lowest first, are `bytes`. -/
def toNat : List UInt8 → Nat
  | [] => 0
  | b :: bytes => b.toNat + 256 * toNat bytes

def ofWord (word : UInt64) : List UInt8 := ofNat 8 word.toNat

def ofWords (words : List UInt64) : List UInt8 := words.flatMap ofWord

def ofString (text : String) : List UInt8 := text.toByteArray.toList

def toString? (bytes : List UInt8) : Option String := String.fromUTF8? bytes.toByteArray

end Ebpf.Bytes
