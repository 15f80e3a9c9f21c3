import Ebpf.Helper

/-! # The catalog of host routines

Named routines that a host can bind to helper identifiers. A routine that implements a
well-known helper carries the identifier of that helper.
-/

namespace Ebpf

/-- What the catalog's random and clock routines answer. It is fixed for a table, so all calls that
go through the table get the same random number and the same time. -/
structure Readings where
  random : UInt32
  nanoseconds : UInt64

structure Routine where
  name : String
  signature : Signature
  wellKnown : Option UInt32
  call : List UInt64 → Except Fault UInt64

namespace Routine

/-- The failure of a routine that got the wrong number of arguments. A routine does not
know the identifier it was called by, so it reports 0. -/
def wrongCount (expected : Nat) (args : List UInt64) : Fault :=
  .helperFailed 0 s!"expected {expected} arguments, got {args.length}"

def packArguments : List UInt64 → Except Fault UInt64
  | [r1, r2, r3, r4, r5] =>
    .ok (((r1 &&& 0xff) <<< 32) ||| ((r2 &&& 0xff) <<< 24) ||| ((r3 &&& 0xff) <<< 16)
      ||| ((r4 &&& 0xff) <<< 8) ||| r5)
  | args => .error (wrongCount 5 args)

def increment : List UInt64 → Except Fault UInt64
  | [x] => .ok (x + 1)
  | args => .error (wrongCount 1 args)

def traceValue : List UInt64 → Except Fault UInt64
  | [_] => .ok 0
  | args => .error (wrongCount 1 args)

variable (readings : Readings)

/-- All routines. Two of them answer what has been read for the table, however often they are
called. -/
def catalog : List Routine :=
  [{ name := "get_prandom_u32", signature := .constant,
     wellKnown := some 7, call := fun _ => .ok readings.random.toUInt64 },
   { name := "ktime_get_ns", signature := .constant,
     wellKnown := some 5, call := fun _ => .ok readings.nanoseconds },
   { name := "get_smp_processor_id", signature := .constant,
     wellKnown := some 8, call := fun _ => .ok 0 },
   { name := "pack_args", signature := .full,
     wellKnown := none, call := packArguments },
   { name := "increment", signature := { arity := 1, returns := true },
     wellKnown := none, call := increment },
   { name := "trace_value", signature := { arity := 1, returns := false },
     wellKnown := none, call := traceValue }]

def toHelper (r : Routine) : Helper := ⟨r.name, r.signature, r.call⟩

def named? (name : String) : Option Helper :=
  ((catalog readings).find? (·.name == name)).map toHelper

def wellKnownHelpers : List (UInt32 × Helper) :=
  (catalog readings).filterMap fun r => r.wellKnown.map (·, r.toHelper)

end Routine

end Ebpf
