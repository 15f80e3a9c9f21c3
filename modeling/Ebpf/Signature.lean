import Ebpf.Limits

/-! # Signatures

How many arguments an entry point or a helper takes, and whether it returns a value. No
signature asks for more arguments than there are argument registers.
-/

namespace Ebpf

structure Signature where
  arity : Nat
  returns : Bool
  arity_le : arity ≤ maxArguments := by decide
  deriving DecidableEq

namespace Signature

def ofArity? (arity : Nat) (returns : Bool) : Option Signature :=
  if h : arity ≤ maxArguments then some ⟨arity, returns, h⟩ else none

def constant : Signature := { arity := 0, returns := true }

def full : Signature := { arity := 5, returns := true }

instance : Inhabited Signature := ⟨constant⟩

def returnArity (s : Signature) : Nat := s.returns.toNat

/-- The signature as reports show it, such as `(2) -> 1`. -/
def text (s : Signature) : String := s!"({s.arity}) -> {s.returnArity}"

end Signature

end Ebpf
