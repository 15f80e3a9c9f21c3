import Ebpf.Command.Load
import Ebpf.Link
import Ebpf.Listing
import Ebpf.Text.Json

/-! # Looking at programs and helpers

Commands that run nothing: linking a program file, listing its instructions, and listing
the helpers of a configuration.
-/

namespace Ebpf.Command

open Text

/-- Links the program at `path` against the configured helpers. -/
def verify (parse : String → Option Config) (files : FileStore) (readings : Readings)
    (path : String) (config : Option String) : Except Error LinkReport := do
  let config ← loadConfig parse files config
  let table ← configuredTable readings config
  let program ← loadProgram files path plainSignature
  (link program table).mapError .link

def callLine (c : ResolvedCall) : String :=
  s!"  pc {padded 4 c.pc}: call {hex c.id.toNat} -> {c.helper} {c.signature.text}"

def linkLines (r : LinkReport) : List String :=
  [s!"entry: {r.entry}"] ++ r.calls.map callLine
    ++ r.unreachable.map (fun name => s!"  unreachable: {name}") ++ ["ok"]

def disassemble (files : FileStore) (path : String) : Except Error (List String) := do
  let program ← loadProgram files path plainSignature
  return s!"== Disassembly of {path} ==" :: program.listing

structure HelperEntry where
  id : UInt32
  name : String
  signature : Signature
  wellKnown : Option String
  deriving DecidableEq

def helperEntries (parse : String → Option Config) (files : FileStore) (readings : Readings)
    (config : Option String) : Except Error (List HelperEntry) := do
  let config ← loadConfig parse files config
  let table ← configuredTable readings config
  return table.toList.map fun (id, helper) =>
    { id, name := helper.name, signature := helper.signature
      wellKnown := (WellKnown.byId? id).map (·.name) }

def helperLine (id name signature wellKnown : String) : String :=
  alignRight 6 id ++ "  " ++ alignLeft 22 name ++ " " ++ alignLeft 10 signature ++ " " ++ wellKnown

def HelperEntry.line (e : HelperEntry) : String :=
  helperLine (hex e.id.toNat) e.name e.signature.text (e.wellKnown.getD "-")

def helperLines (entries : List HelperEntry) : List String :=
  helperLine "id" "routine" "signature" "well-known" :: entries.map (·.line)

def HelperEntry.json (e : HelperEntry) : Json :=
  .object
    [("id", .number e.id.toNat), ("name", .string e.name), ("arity", .number e.signature.arity),
     ("returns", .boolean e.signature.returns), ("well_known", .ofOption .string e.wellKnown)]

end Ebpf.Command
