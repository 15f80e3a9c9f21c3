import Ebpf.HelperTable
import Ebpf.Machine.State
import Ebpf.Toml.Document

/-! # Configurations

A configuration sets the budget of a run and describes a helper table. It is read from a
document with the sections `vm` and `helpers`, in which every key is known and optional.
-/

namespace Ebpf

structure Binding where
  id : UInt32
  routine : String
  deriving DecidableEq

structure Config where
  budget : UInt64 := defaultBudget
  /-- Bind the routines that implement well-known helpers. -/
  defaults : Bool := true
  bindings : List Binding := []
  deriving DecidableEq

structure BindingError where
  id : UInt32
  cause : RegistryError
  deriving DecidableEq

namespace Config

/-- Makes the bindings in order; a later one replaces an earlier one of its identifier. -/
def bindAll (readings : Readings) (table : HelperTable) (bindings : List Binding) :
    Except BindingError HelperTable :=
  bindings.foldlM (fun table b =>
    match table.registerRoutine readings b.id b.routine with
    | (.ok _, table) => .ok table
    | (.error cause, _) => .error ⟨b.id, cause⟩) table

/-- The table that the configuration describes. Its bindings override the defaults. -/
def helperTable (readings : Readings) (c : Config) : Except BindingError HelperTable :=
  bindAll readings (if c.defaults then HelperTable.withDefaults readings else .empty) c.bindings

def settings (c : Config) : Settings := { budget := c.budget }

section Reading

open Toml

/-- The items of an array, or the tables under repeated headers. -/
def items? : Value → Option (List Value)
  | .array items => some items
  | .tables items => some (items.map (.table .header))
  | _ => none

/-- The fields of a section by name, if it has no others. A section may also be an array of
its fields in this order. -/
def fields? (names : List String) : Value → Option (List (Option Value))
  | .table _ entries =>
    if entries.all (names.contains ·.1) then some (names.map (Entries.lookup · entries)) else none
  | v => (items? v).map fun items => (List.range names.length).map (items[·]?)

def natural? (bound : Nat) : Value → Option Nat
  | .integer n => if 0 ≤ n ∧ n < bound then some n.toNat else none
  | _ => none

def boolean? : Value → Option Bool
  | .boolean b => some b
  | _ => none

def text? : Value → Option String
  | .string s => some s
  | _ => none

def orElse {α : Type} (default : α) (read : Value → Option α) : Option Value → Option α
  | some v => read v
  | none => some default

def binding? (v : Value) : Option Binding := do
  match ← fields? ["id", "routine"] v with
  | [some id, some routine] =>
    return { id := UInt32.ofNat (← natural? UInt32.size id), routine := ← text? routine }
  | _ => none

def bindings? (v : Value) : Option (List Binding) := do (← items? v).mapM binding?

def ofVm (c : Config) (v : Value) : Option Config := do
  match ← fields? ["max_steps"] v with
  | [steps] =>
    let budget ← orElse c.budget (fun v => (natural? UInt64.size v).map UInt64.ofNat) steps
    return { c with budget }
  | _ => none

def ofHelpers (c : Config) (v : Value) : Option Config := do
  match ← fields? ["defaults", "bind"] v with
  | [defaults, bind] =>
    return { c with defaults := ← orElse c.defaults boolean? defaults
                    bindings := ← orElse c.bindings bindings? bind }
  | _ => none

def ofEntries (entries : Entries) : Option Config := do
  match ← fields? ["vm", "helpers"] (.table .header entries) with
  | [vm, helpers] =>
    let c ← orElse {} (ofVm {}) vm
    orElse c (ofHelpers c) helpers
  | _ => none

/-- Reads a configuration. Wrong TOML, unknown keys and values of another type are refused
alike. -/
def parse (text : String) : Option Config := do ofEntries (← Toml.parse text)

end Reading

end Config

end Ebpf
