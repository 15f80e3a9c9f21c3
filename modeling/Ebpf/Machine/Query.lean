import Ebpf.Fault

/-! # Queries

A query reads one place after the other and goes on with what stands there, which is left open until
the query is evaluated. So the places that an instruction reads can be listed without running it.
-/

namespace Ebpf

/-- What an instruction can read. -/
inductive Place where
  | register (reg : UInt8)
  | slot (pc : Nat)
  | bytes (addr : UInt64) (len : Nat)
  /-- Bytes of the context, given by their offset from its start. -/
  | packet (offset : UInt64) (len : Nat)

inductive Query (α : Type) where
  | done (a : α)
  | fail (cause : Trap)
  | ask (place : Place) (next : UInt64 → Query α)

namespace Query

variable {α β : Type}

def bind : Query α → (α → Query β) → Query β
  | done a, f => f a
  | fail cause, _ => fail cause
  | ask place next, f => ask place fun value => (next value).bind f

instance : Monad Query where
  pure := done
  bind := bind

def ofExcept : Except Trap α → Query α
  | .ok a => done a
  | .error cause => fail cause

def fetch (place : Place) : Query UInt64 := ask place done

def fetchAll : List Place → Query (List UInt64)
  | [] => return []
  | place :: places => do
    let value ← fetch place
    let values ← fetchAll places
    return value :: values

/-- The result of a query if `answer` is what stands at the places. A place without an answer ends
the query with its fault. -/
def eval (answer : Place → Except Fault UInt64) : Query α → Except Trap α
  | done a => .ok a
  | fail cause => .error cause
  | ask place next =>
    match answer place with
    | .ok value => (next value).eval answer
    | .error f => .error (.fault f)

end Query

end Ebpf
