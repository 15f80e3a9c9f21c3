import Ebpf.Container.Writer
import Ebpf.Function.Boundary
import Ebpf.Instruction.Assembly
import Ebpf.Main
import Ebpf.SharedTable
import Ebpf.Proofs.Bytes
import Ebpf.Proofs.Container.Reader
import Ebpf.Proofs.Failure
import Ebpf.Proofs.IdMap
import Ebpf.Proofs.Machine.Effect
import Ebpf.Proofs.Machine.Step
import Ebpf.Proofs.Machine.Run
import Ebpf.Proofs.Machine.Boundary
import Ebpf.Proofs.Machine.Dispatch
import Ebpf.Proofs.Machine.HelperCall
import Ebpf.Proofs.Program
import Ebpf.Proofs.Container.Grammar
import Ebpf.Proofs.Container.RoundTrip
import Ebpf.Proofs.Invocation
import Ebpf.Proofs.Machine.Budget
import Ebpf.Proofs.Machine.Access
import Ebpf.Proofs.Machine.Trap
import Ebpf.Proofs.Machine.Invariant
import Ebpf.Proofs.Locality
import Ebpf.Proofs.Machine.Memory
import Ebpf.Proofs.Machine.ByteMap
import Ebpf.Proofs.Machine.Frame
import Ebpf.Proofs.HelperTable
import Ebpf.Proofs.SharedTable
import Ebpf.Proofs.Arithmetic
import Ebpf.Proofs.Machine.Arithmetic
import Ebpf.Proofs.Link
import Ebpf.Proofs.Invoke
import Ebpf.Proofs.Codec
import Ebpf.Proofs.Listing
import Ebpf.Proofs.Machine.Lockstep
import Ebpf.Proofs.Machine.Jump
import Ebpf.Proofs.Machine.ByteOrder
import Ebpf.Proofs.Machine.Load
import Ebpf.Proofs.Machine.Packet
import Ebpf.Proofs.Machine.Store
import Ebpf.Proofs.Machine.Diagnosis
import Ebpf.Proofs.Machine.Culprit
import Ebpf.Proofs.Machine.Attribution
import Ebpf.Container.Output
import Ebpf.Proofs.Container.Output
import Ebpf.Proofs.Container.Truncation
import Ebpf.Proofs.Declarations
import Ebpf.Proofs.Container.Flat
import Ebpf.Proofs.Outline
import Ebpf.Proofs.Command.Load
import Ebpf.Proofs.Command.Run
import Ebpf.Proofs.Command.Options
import Ebpf.Proofs.Config
import Ebpf.Proofs.Fields
import Ebpf.Proofs.Text.Blank
import Ebpf.Proofs.Text.Numeral
import Ebpf.Proofs.Machine.Assembled
import Ebpf.Proofs.Summation
