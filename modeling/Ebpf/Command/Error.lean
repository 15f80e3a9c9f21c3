import Ebpf.Command.Files
import Ebpf.Config
import Ebpf.Container.Layout

/-! # Failed commands

A failure has a chain of messages, from what the command was about down to the first cause.
-/

namespace Ebpf.Command

inductive Error where
  | unreadableConfig (path : String) (cause : FileError)
  | invalidConfig (path : String)
  | binding (cause : BindingError)
  | entrySignature (cause : ProgramError)
  | unreadableContainer (path : String) (cause : FileError)
  | container (path : String) (cause : Container.Error)
  | unreadableFlat (path : String) (cause : FileError)
  | flat (path : String) (cause : Container.Error)
  | unreadableContext (path : String) (cause : FileError)
  | link (cause : Trap)
  | trapped (entry : String) (cause : Trap)
  deriving DecidableEq

/-- Data that ends too early has a cause of its own; any other refusal is the first cause. -/
def containerChain (e : Container.Error) : List String :=
  match e.kind with
  | .io => [e.message, e.detail]
  | _ => [e.message]

namespace Error

def chain : Error → List String
  | unreadableConfig path cause => [s!"Failed to read config {path}", cause.message]
  | invalidConfig path => [s!"Invalid config {path}"]
  | binding cause => [s!"Cannot bind helper {cause.id.toNat}", cause.cause.message]
  | entrySignature cause => ["Invalid raw entry signature", cause.message]
  | unreadableContainer path cause => [s!"Failed to open {path}", cause.message]
  | container path cause => s!"Failed to load container {path}" :: containerChain cause
  | unreadableFlat path cause => [s!"Failed to read {path}", cause.message]
  | flat path cause => s!"Failed to load raw binary {path}" :: containerChain cause
  | unreadableContext path cause => [s!"Failed to read context {path}", cause.message]
  | link cause => [s!"Link failed: {cause.message}"]
  | trapped entry cause => [s!"{entry}: trapped: {cause.message}"]

/-- The chain on one line. -/
def message (e : Error) : String := ": ".intercalate e.chain

/-- A cause with `first` in front and its further lines indented. -/
def causeText (first further cause : String) : String :=
  first ++ ("\n" ++ further).intercalate (cause.splitOn "\n")

/-- The chain over several lines. Causes are numbered if there is more than one. -/
def report (e : Error) : String :=
  match e.chain with
  | [] => ""
  | [message] => s!"Error: {message}\n"
  | [message, cause] =>
    s!"Error: {message}\n\nCaused by:\n" ++ causeText "    " "    " cause ++ "\n"
  | message :: causes =>
    s!"Error: {message}\n\nCaused by:\n"
      ++ String.join (causes.zipIdx.map fun (cause, n) =>
        causeText (Text.alignRight 5 (toString n) ++ ": ") "       " cause ++ "\n")

end Error

end Ebpf.Command
