import Ebpf.Fault
import Ebpf.Function
import Ebpf.IdMap
import Ebpf.WellKnown

/-! # Programs

A program is an ordered list of functions and the helper declarations its call sites were
compiled against. Its first function is the entry point; no other function can be reached.
No function is longer than the machine allows, and each identifier is declared once.
-/

namespace Ebpf

open Text

/-- Why a program cannot be put together. -/
inductive ProgramError where
  | invalidArity (arity : Nat)
  | conflictingImport (id : UInt32)
  | unknownWellKnown (name : String)
  | codeTooLarge (name : String) (slots : Nat)
  deriving DecidableEq

def ProgramError.message : ProgramError → String
  | invalidArity arity => s!"arity {arity} exceeds the five argument registers"
  | conflictingImport id =>
    s!"helper {hex id.toNat} is declared twice with different signatures"
  | unknownWellKnown name => s!"no well-known helper named `{name}`"
  | codeTooLarge name slots =>
    s!"function `{name}` has {slots} instruction slots, limit is {maxSlots}"

def Signature.ofArity (arity : Nat) (returns : Bool) : Except ProgramError Signature :=
  match Signature.ofArity? arity returns with
  | some s => .ok s
  | none => .error (.invalidArity arity)

/-- What a program says about a helper it calls. -/
structure Declaration where
  name : Option String
  signature : Signature
  deriving DecidableEq

def Declaration.wellKnown (name : String) : Except ProgramError (UInt32 × Declaration) :=
  match WellKnown.byName? name with
  | some w => .ok (w.id, ⟨some w.name, w.signature⟩)
  | none => .error (.unknownWellKnown name)

structure Program where
  functions : List Function
  imports : IdMap Declaration
  size_le : ∀ f ∈ functions, f.code.size ≤ maxSlots
  deriving DecidableEq

namespace Program

/-- Adds a declaration. A repeated one is dropped if it has the signature of the first. -/
def declare (imports : IdMap Declaration) (declaration : UInt32 × Declaration) :
    Except ProgramError (IdMap Declaration) :=
  match imports.get? declaration.1 with
  | some first =>
    if first.signature = declaration.2.signature then .ok imports
    else .error (.conflictingImport declaration.1)
  | none => .ok (imports.insert declaration.1 declaration.2)

def build (functions : List Function) (declarations : List (UInt32 × Declaration)) :
    Except ProgramError Program :=
  match h : functions.find? (fun f => decide (maxSlots < f.code.size)) with
  | some f => .error (.codeTooLarge f.name f.code.size)
  | none =>
    match declarations.foldlM declare .empty with
    | .ok imports =>
      .ok { functions, imports,
            size_le := fun f hf => by simpa using List.find?_eq_none.1 h f hf }
    | .error e => .error e

def single (f : Function) : Except ProgramError Program := build [f] []

/-- The entry point: the first function, whatever its name. -/
def entry (p : Program) : Except Trap Function :=
  match p.functions.head? with
  | some f => .ok f
  | none => .error .noEntryPoint

def unreachable (p : Program) : List Function := p.functions.tail

/-- The signature that calls of `id` were compiled against: the program's own declaration
comes before the well-known registry. -/
def declaredSignature (p : Program) (id : UInt32) : Option Signature :=
  match p.imports.get? id with
  | some d => some d.signature
  | none => (WellKnown.byId? id).map (·.signature)

end Program

end Ebpf
