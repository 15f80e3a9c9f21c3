import Ebpf.Inspect
import Ebpf.Link
import Ebpf.Machine.Run

/-! # Invocations

An invocation binds arguments, links the program and runs its entry point once. It goes
from ready through bound and running to returned or trapped, and the last two are final.
-/

namespace Ebpf

inductive Status where
  | ready
  | argsBound
  | running
  | returned (value : Option UInt64)
  | trapped (cause : Trap)
  deriving DecidableEq

namespace Status

def isTerminal : Status → Bool
  | returned _ | trapped _ => true
  | _ => false

def name : Status → String
  | ready => "Ready"
  | argsBound => "ArgsBound"
  | running => "Running"
  | returned _ => "Returned"
  | trapped _ => "Trapped"

def inspect : Status → String
  | returned none => Text.inspectCall "Returned" "None"
  | returned (some value) =>
    Text.inspectCall "Returned" (Text.inspectCall "Some" (toString value.toNat))
  | trapped cause => Text.inspectCall "Trapped" cause.inspect
  | status => status.name

end Status

structure Invocation where
  program : Program
  table : HelperTable
  /-- What the host has decided, until a machine is started with it. -/
  settings : Option Settings
  /-- The machine and the state that binding has prepared. -/
  prepared : Option (Machine × State)
  status : Status

namespace Invocation

def new (program : Program) (table : HelperTable) (settings : Settings) : Invocation :=
  { program, table, settings := some settings, prepared := none, status := .ready }

def refuse (inv : Invocation) (operation : String) : Trap :=
  .fault (.invalidTransition s!"cannot {operation} in state {inv.status.inspect}")

def bindArguments (s : State) (args : List UInt64) : Except Fault State :=
  args.zipIdx.foldlM (fun s arg => s.setArgument arg.2 arg.1) s

/-- The entry point of `program`, if `args` are enough for it. -/
def entryFor (program : Program) (args : List UInt64) : Except Trap Function := do
  let entry ← program.entry
  let arity := entry.signature.arity
  if args.length < arity then throw (.arityMismatch arity args.length)
  return entry

/-- A machine whose argument registers hold as many of `args` as `entry` takes. -/
def load (program : Program) (table : HelperTable) (settings : Settings) (entry : Function)
    (args : List UInt64) : Except Trap (Machine × State) := do
  let (machine, s) ← Machine.start program table settings
  match bindArguments s (args.take entry.signature.arity) with
  | .ok s => return (machine, s)
  | .error fault => throw (.fault fault)

/-- Prepares a machine for `args`. The settings are taken out when one is started. -/
def prepare (inv : Invocation) (args : List UInt64) :
    Except Trap (Machine × State) × Invocation :=
  match entryFor inv.program args with
  | .error cause => (.error cause, inv)
  | .ok entry =>
    (load inv.program inv.table (inv.settings.getD {}) entry args, { inv with settings := none })

/-- Binds the arguments. This is possible once, in a new invocation. -/
def bind (inv : Invocation) (args : List UInt64) : Except Trap Unit × Invocation :=
  if inv.status = .ready then
    match inv.prepare args with
    | (.ok prepared, inv) =>
      (.ok (), { inv with prepared := some prepared, status := .argsBound })
    | (.error cause, inv) => (.error cause, { inv with status := .trapped cause })
  else (.error (inv.refuse "bind"), inv)

/-- Links the program and takes out the prepared machine. -/
def launch (inv : Invocation) : Except Trap (Machine × State) × Invocation :=
  match link inv.program inv.table with
  | .error cause => (.error cause, { inv with status := .trapped cause })
  | .ok _ =>
    match inv.prepared with
    | none => (.error (inv.refuse "run"), inv)
    | some prepared => (.ok prepared, { inv with prepared := none, status := .running })

/-- Runs the prepared machine to its end. -/
def conclude (inv : Invocation) (machine : Machine) (s : State) :
    Except Trap (Option UInt64) × Invocation :=
  match (machine.run s).1 with
  | .ok r0 =>
    let value := if machine.entry.signature.returns then some r0 else none
    (.ok value, { inv with status := .returned value })
  | .error cause => (.error cause, { inv with status := .trapped cause })

/-- Runs an invocation whose arguments are bound. One that has ended answers with its
outcome again. -/
def run (inv : Invocation) : Except Trap (Option UInt64) × Invocation :=
  match inv.status with
  | .argsBound =>
    match inv.launch with
    | (.ok (machine, s), inv) => inv.conclude machine s
    | (.error cause, inv) => (.error cause, inv)
  | .returned value => (.ok value, inv)
  | .trapped cause => (.error cause, inv)
  | .ready | .running => (.error (inv.refuse "run"), inv)

end Invocation

/-- Binds `args` to the entry point of `program` and runs it. -/
def invoke (program : Program) (args : List UInt64) (table : HelperTable)
    (settings : Settings) : Except Trap (Option UInt64) :=
  match (Invocation.new program table settings).bind args with
  | (.ok (), inv) => inv.run.1
  | (.error cause, _) => .error cause

end Ebpf
