import Ebpf.Command.Load
import Ebpf.Invocation
import Ebpf.Text.Json

/-! # Running a program file

The run command loads, configures and invokes. A trap is part of the report and no failure
to execute.
-/

namespace Ebpf.Command

structure RunOptions where
  path : String
  args : List UInt64 := []
  config : Option String := none
  /-- The file with the context bytes. -/
  data : Option String := none
  /-- The arity of a flat binary; the number of arguments if missing. -/
  arity : Option UInt8 := none
  /-- A flat binary returns nothing. -/
  void : Bool := false
  deriving DecidableEq

structure RunReport where
  entry : String
  outcome : Except Trap (Option UInt64)

namespace RunReport

def status (r : RunReport) : String :=
  match r.outcome with
  | .ok _ => "returned"
  | .error _ => "trapped"

def value? (r : RunReport) : Option UInt64 :=
  match r.outcome with
  | .ok value => value
  | .error _ => none

def trap? (r : RunReport) : Option Trap :=
  match r.outcome with
  | .ok _ => none
  | .error cause => some cause

/-- The report as a line of text. There is none for a trap. -/
def text? (r : RunReport) : Option String :=
  match r.outcome with
  | .ok (some value) => some s!"{r.entry} = {value.toNat} ({Text.hex value.toNat})"
  | .ok none => some s!"{r.entry} returned"
  | .error _ => none

def json (r : RunReport) : Json :=
  .object
    [("entry", .string r.entry), ("status", .string r.status),
     ("value", .ofOption (fun v => .number v.toNat) r.value?),
     ("trap", .ofOption (fun t => .string t.message) r.trap?)]

end RunReport

/-- The signature of a flat binary under the given options. -/
def RunOptions.signature (o : RunOptions) : Except Error Signature :=
  let arity := match o.arity with
    | some arity => arity.toNat
    | none => min o.args.length maxArguments
  (Signature.ofArity arity (!o.void)).mapError .entrySignature

/-- The context bytes in a file; none without a file. -/
def loadContext (files : FileStore) : Option String → Except Error (Array UInt8)
  | none => .ok #[]
  | some path =>
    match files path with
    | .ok bytes => .ok bytes.toArray
    | .error e => .error (.unreadableContext path e)

/-- The name of the entry point; it is empty if there is none. -/
def entryName (program : Program) : String :=
  match program.entry with
  | .ok f => f.name
  | .error _ => ""

/-- Here and in the other commands, `parse` reads the text of a configuration. -/
def execute (parse : String → Option Config) (files : FileStore) (readings : Readings)
    (o : RunOptions) : Except Error RunReport := do
  let config ← loadConfig parse files o.config
  let table ← configuredTable readings config
  let signature ← o.signature
  let program ← loadProgram files o.path signature
  let context ← loadContext files o.data
  return { entry := entryName program
           outcome := invoke program o.args table { config.settings with context } }

end Ebpf.Command
