import Ebpf.Bytes
import Ebpf.Program

/-! # The container layout

A container lists functions and declarations. `Layout.bytes` is its written form: a magic
number, then each list behind its length, with all numbers little-endian. A declaration
without a name is written with the empty name.
-/

namespace Ebpf.Container

open Bytes

def maxFunctions : Nat := 64

def maxImports : Nat := 256

def maxNameLength : Nat := 256

/-- The letters HBF and the version. -/
def magic : List UInt8 := [0x48, 0x42, 0x46, 0x01]

/-- Why a container or a flat binary is refused. -/
inductive Error where
  | endOfData
  | badMagic
  | tooManyFunctions (count : Nat)
  | tooManyImports (count : Nat)
  | nameTooLong (length : Nat)
  | nameNotText
  | badReturns (byte : UInt8)
  | tooManySlots (name : String) (slots : Nat)
  | longName (name : String)
  | partialWord (length : Nat)
  | flatTooLarge (slots : Nat)
  | program (cause : ProgramError)
  deriving DecidableEq

/-- The kinds of refusal: data that ends too early, data of another form, data beyond a
limit, and declarations that do not fit together. -/
inductive ErrorKind where
  | io | format | limit | program
  deriving DecidableEq, Repr

namespace Error

def kind : Error → ErrorKind
  | endOfData => .io
  | badMagic | nameNotText | badReturns _ | partialWord _ => .format
  | tooManyFunctions _ | tooManyImports _ | nameTooLong _ | tooManySlots _ _ | longName _
  | flatTooLarge _ => .limit
  | program _ => .program

def detail : Error → String
  | endOfData => "failed to fill whole buffer"
  | badMagic => "invalid magic or version"
  | tooManyFunctions count => s!"function count {count} exceeds {maxFunctions}"
  | tooManyImports count => s!"import count {count} exceeds {maxImports}"
  | nameTooLong length => s!"name length {length} exceeds {maxNameLength}"
  | nameNotText => "invalid UTF-8 in name"
  | badReturns byte => s!"return arity must be 0 or 1, got {byte.toNat}"
  | tooManySlots name slots => s!"function `{name}` has {slots} slots, limit is {maxSlots}"
  | longName name => s!"name `{name}` is longer than {maxNameLength} bytes"
  | partialWord length => s!"raw binary length {length} is not a multiple of 8"
  | flatTooLarge slots => s!"raw binary has {slots} slots, limit is {maxSlots}"
  | program cause => cause.message

def message (e : Error) : String :=
  match e.kind with
  | .io => s!"i/o error: {e.detail}"
  | .format => s!"invalid container: {e.detail}"
  | .limit => s!"container exceeds limit: {e.detail}"
  | .program => e.detail

end Error

structure Layout where
  functions : List Function
  imports : List (UInt32 × Declaration)
  deriving DecidableEq

def nameBytes (name : String) : List UInt8 :=
  let bytes := ofString name
  ofNat 2 bytes.length ++ bytes

def signatureBytes (s : Signature) : List UInt8 :=
  [UInt8.ofNat s.arity, UInt8.ofNat s.returnArity]

def functionBytes (f : Function) : List UInt8 :=
  nameBytes f.name ++ signatureBytes f.signature ++ ofNat 4 f.code.size
    ++ ofWords f.code.toList

def importBytes (i : UInt32 × Declaration) : List UInt8 :=
  ofNat 4 i.1.toNat ++ signatureBytes i.2.signature ++ nameBytes (i.2.name.getD "")

def Layout.bytes (l : Layout) : List UInt8 :=
  magic ++ ofNat 2 l.functions.length ++ l.functions.flatMap functionBytes
    ++ ofNat 2 l.imports.length ++ l.imports.flatMap importBytes

end Ebpf.Container
