import Ebpf.HelperTable

/-! # Shared helper tables

A shared table holds the current table of a host. A snapshot is the table as it stands; an
update is published as a whole or not at all.
-/

namespace Ebpf

structure SharedTable where
  current : HelperTable

namespace SharedTable

def snapshot (s : SharedTable) : HelperTable := s.current

/-- Runs `change` on a copy of the current table, and publishes the copy unless the change fails. A
change gives its result and what it leaves of the copy; that of a failing one is thrown away. -/
def update {ε α : Type} (s : SharedTable) (change : HelperTable → Except ε α × HelperTable) :
    Except ε α × SharedTable :=
  match change s.current with
  | (.ok result, next) => (.ok result, ⟨next⟩)
  | (.error e, _) => (.error e, s)

end SharedTable

end Ebpf
