import Ebpf.IdMap
import Ebpf.Routine

/-! # Helper tables

A table binds identifiers to helpers. Identifier 0 is reserved: no operation binds it.
-/

namespace Ebpf

inductive RegistryError where
  | reserved (id : UInt32)
  | unknownRoutine (name : String)
  deriving DecidableEq

def RegistryError.message : RegistryError → String
  | reserved id => s!"helper id {id.toNat} is reserved"
  | unknownRoutine name => s!"no host routine named `{name}`"

/-- The identifier that never names a helper. -/
def reservedId : UInt32 := 0

abbrev HelperTable := IdMap Helper

namespace HelperTable

/-! An operation gives its result and the table that it leaves, also if it fails. -/

/-- Binds `id`, and answers with the helper bound before, if any. -/
def register (t : HelperTable) (id : UInt32) (helper : Helper) :
    Except RegistryError (Option Helper) × HelperTable :=
  if id = reservedId then (.error (.reserved id), t)
  else (.ok (t.get? id), t.insert id helper)

def remove (t : HelperTable) (id : UInt32) : Option Helper × HelperTable :=
  (t.get? id, t.erase id)

variable (readings : Readings)

/-- Binds `id` to a routine of the catalog. An unknown routine is reported before a
reserved identifier. -/
def registerRoutine (t : HelperTable) (id : UInt32) (routine : String) :
    Except RegistryError (Option Helper) × HelperTable :=
  match Routine.named? readings routine with
  | some helper => t.register id helper
  | none => (.error (.unknownRoutine routine), t)

/-- Binds each routine that implements a well-known helper to that helper's identifier. -/
def bootstrap (t : HelperTable) : HelperTable :=
  (Routine.wellKnownHelpers readings).foldl (fun t b => t.insert b.1 b.2) t

def withDefaults : HelperTable := bootstrap readings .empty

inductive Edit where
  | bootstrap
  | register (id : UInt32) (helper : Helper)
  | registerRoutine (id : UInt32) (routine : String)
  | remove (id : UInt32)

def edit (t : HelperTable) : Edit → Except RegistryError (Option Helper) × HelperTable
  | .bootstrap => (.ok none, t.bootstrap readings)
  | .register id helper => t.register id helper
  | .registerRoutine id routine => t.registerRoutine readings id routine
  | .remove id =>
    let (before, next) := t.remove id
    (.ok before, next)

/-- Makes changes in order, up to the first that fails. What the changes in front of it have
done to the table is not undone. -/
def editAll (t : HelperTable) :
    List Edit → Except RegistryError (List (Option Helper)) × HelperTable
  | [] => (.ok [], t)
  | e :: es =>
    match t.edit readings e with
    | (.error cause, next) => (.error cause, next)
    | (.ok before, next) =>
      let (answers, last) := next.editAll es
      (answers.map (before :: ·), last)

end HelperTable

end Ebpf
