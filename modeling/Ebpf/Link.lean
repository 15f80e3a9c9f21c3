import Ebpf.HelperTable
import Ebpf.Program

/-! # Linking

Linking checks every call site of the entry point against a helper table, so that an
invocation does not start with a call that it cannot complete.
-/

namespace Ebpf

structure ResolvedCall where
  pc : Nat
  id : UInt32
  helper : String
  signature : Signature
  deriving DecidableEq

structure LinkReport where
  entry : String
  calls : List ResolvedCall
  /-- Names of the functions that the host cannot reach. -/
  unreachable : List String
  deriving DecidableEq

/-- A call site resolves if it asks for a helper, the helper is registered, and no declared
signature differs from the registered one. -/
def CallSite.link (program : Program) (table : HelperTable) (site : CallSite) :
    Except Trap ResolvedCall :=
  if site.pseudo then .error (.fault (.unsupportedCall site.pc))
  else
    match table.get? site.id with
    | none => .error (.unknownHelper site.id)
    | some helper =>
      match (program.declaredSignature site.id).filter (· ≠ helper.signature) with
      | some declared => .error (.signatureMismatch site.id declared helper.signature)
      | none => .ok ⟨site.pc, site.id, helper.name, helper.signature⟩

/-- Checks the call sites of the entry point in program order; the first failure is the
result. -/
def link (program : Program) (table : HelperTable) : Except Trap LinkReport := do
  let entry ← program.entry
  let calls ← entry.callSites.mapM (·.link program table)
  return { entry := entry.name, calls, unreachable := program.unreachable.map (·.name) }

end Ebpf
