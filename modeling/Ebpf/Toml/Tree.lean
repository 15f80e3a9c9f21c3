import Ebpf.Toml.Value

/-! # Building tables

Lines add to tables that are reached through keys. A table may be opened by one header only,
a table that a header has opened cannot be reached through a dotted key, and what stands in
braces or brackets is closed.
-/

namespace Ebpf.Toml

/-- Applies `change` to the table at the end of `path` and makes the tables on the way that
are missing. `dotted` tells a dotted key from a header. -/
def changeAt {α : Type} (dotted : Bool)
    (change : TableOrigin → Entries → Option (α × Entries)) :
    List String → TableOrigin → Entries → Option (α × Entries)
  | [], origin, entries => change origin entries
  | key :: path, _, entries =>
    match Entries.lookup key entries with
    | none =>
      let origin := if dotted then .dotted else .implied
      (changeAt dotted change path origin []).map fun (a, sub) =>
        (a, Entries.set key (.table origin sub) entries)
    | some (.table origin sub) =>
      if origin = .inline ∨ (dotted ∧ origin = .header) then none
      else
        (changeAt dotted change path origin sub).map fun (a, sub) =>
          (a, Entries.set key (.table origin sub) entries)
    | some (.tables items) =>
      (changeAt dotted change path .header (items.getLastD [])).map fun (a, last) =>
        (a, Entries.set key (.tables (items.dropLast ++ [last])) entries)
    | some _ => none

/-- Adds a value under a dotted key. Only tables that dotted keys made can be added to
through one. -/
def addValue (path : List String) (key : String) (value : Value) (entries : Entries) :
    Option Entries :=
  let change (origin : TableOrigin) (entries : Entries) : Option (Unit × Entries) :=
    if (origin == .dotted) == path.isEmpty then none
    else (Entries.add key value entries).map ((), ·)
  (changeAt true change path .header entries).map (·.2)

/-- Where a document stands: the tables that are complete, and the one that is open. -/
structure Draft where
  root : Entries := []
  /-- The key of the open table; it is empty for the root. -/
  path : List String := []
  /-- The open table is one of several under its key. -/
  repeated : Bool := false
  current : Entries := []

def Draft.close (d : Draft) : Option Entries :=
  match d.path.reverse with
  | [] => some d.current
  | key :: parents =>
    let change (_ : TableOrigin) (entries : Entries) : Option (Unit × Entries) :=
      if d.repeated then
        match Entries.lookup key entries with
        | none => some ((), Entries.set key (.tables [d.current]) entries)
        | some (.tables items) =>
          some ((), Entries.set key (.tables (items ++ [d.current])) entries)
        | some _ => none
      else some ((), Entries.set key (.table .header d.current) entries)
    (changeAt false change parents.reverse .header d.root).map (·.2)

/-- Closes the open table and opens the one at `path`. A table that longer headers have
passed through keeps what they put there. -/
def Draft.openTable (d : Draft) (path : List String) : Option Draft := do
  let root ← d.close
  match path.reverse with
  | [] => none
  | key :: parents =>
    let change (_ : TableOrigin) (entries : Entries) : Option (Entries × Entries) :=
      match Entries.lookup key entries with
      | none => some ([], entries)
      | some (.table .implied sub) => some (sub, entries)
      | some _ => none
    let (current, root) ← changeAt false change parents.reverse .header root
    return { root, path, repeated := false, current }

def Draft.openRepeated (d : Draft) (path : List String) : Option Draft := do
  let root ← d.close
  match path.reverse with
  | [] => none
  | key :: parents =>
    let change (_ : TableOrigin) (entries : Entries) : Option (Unit × Entries) :=
      match Entries.lookup key entries with
      | none | some (.tables _) => some ((), entries)
      | some _ => none
    let (_, root) ← changeAt false change parents.reverse .header root
    return { root, path, repeated := true, current := [] }

def Draft.add (d : Draft) (path : List String) (key : String) (value : Value) : Option Draft := do
  return { d with current := ← addValue path key value d.current }

end Ebpf.Toml
