import Ebpf.Command.Error
import Ebpf.Container.Flat
import Ebpf.Container.Reader

/-! # Loading configurations and programs

A file whose name ends in `.hbf` is a container; any other file is a flat binary.
-/

namespace Ebpf.Command

/-- The configuration at a path, or the default without one. -/
def loadConfig (parse : String → Option Config) (files : FileStore) :
    Option String → Except Error Config
  | none => .ok {}
  | some path =>
    match files.readText path with
    | .error e => .error (.unreadableConfig path e)
    | .ok text =>
      match parse text with
      | some config => .ok config
      | none => .error (.invalidConfig path)

def configuredTable (readings : Readings) (config : Config) : Except Error HelperTable :=
  (config.helperTable readings).mapError .binding

def isContainerPath (path : String) : Bool := path.endsWith ".hbf"

/-- The program at a path. A container has its own signatures, so `flatSignature` is used
for flat binaries only. -/
def loadProgram (files : FileStore) (path : String) (flatSignature : Signature) :
    Except Error Program :=
  if isContainerPath path then
    match files path with
    | .error e => .error (.unreadableContainer path e)
    | .ok bytes =>
      match Container.read bytes with
      | .ok (program, _) => .ok program
      | .error e => .error (.container path e)
  else
    match files path with
    | .error e => .error (.unreadableFlat path e)
    | .ok bytes => (Container.readFlat bytes flatSignature).mapError (.flat path)

/-- The signature that a flat binary gets where it does not matter. -/
def plainSignature : Signature := .constant

end Ebpf.Command
