import Ebpf.Signature

/-! # The registry of well-known helpers

Identifiers, names and signatures that front ends and hosts agree on. Identifier 0 never
names a helper.
-/

namespace Ebpf

structure WellKnown where
  id : UInt32
  name : String
  signature : Signature
  deriving DecidableEq

namespace WellKnown

def registry : List WellKnown :=
  [{ id := 1, name := "bpf_map_lookup_elem", signature := { arity := 2, returns := true } },
   { id := 2, name := "bpf_map_update_elem", signature := { arity := 4, returns := true } },
   { id := 3, name := "bpf_map_delete_elem", signature := { arity := 2, returns := true } },
   { id := 4, name := "bpf_probe_read", signature := { arity := 3, returns := true } },
   { id := 5, name := "bpf_ktime_get_ns", signature := .constant },
   { id := 6, name := "bpf_trace_printk", signature := .full },
   { id := 7, name := "bpf_get_prandom_u32", signature := .constant },
   { id := 8, name := "bpf_get_smp_processor_id", signature := .constant }]

def byId? (id : UInt32) : Option WellKnown := registry.find? (·.id == id)

def byName? (name : String) : Option WellKnown := registry.find? (·.name == name)

end WellKnown

end Ebpf
