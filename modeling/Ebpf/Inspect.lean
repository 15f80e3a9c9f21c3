import Ebpf.Helper
import Ebpf.Text.Quoted

/-! # Inspection

Texts that show a value whole, for diagnostics: constructors, field names and all fields,
with numbers in decimal.
-/

namespace Ebpf

open Text

def Signature.inspect (s : Signature) : String :=
  inspectRecord "Signature" [("arity", toString s.arity), ("returns", toString s.returns)]

def Fault.inspect : Fault → String
  | invalidOpcode opcode pc =>
    inspectRecord "InvalidOpcode" [("opcode", toString opcode.toNat), ("pc", toString pc)]
  | invalidRegister reg pc =>
    inspectRecord "InvalidRegister" [("reg", toString reg.toNat), ("pc", toString pc)]
  | divisionByZero pc => inspectRecord "DivisionByZero" [("pc", toString pc)]
  | outOfBounds addr len =>
    inspectRecord "OutOfBounds" [("addr", toString addr.toNat), ("len", toString len)]
  | stepLimitExceeded limit => inspectCall "StepLimitExceeded" (toString limit.toNat)
  | pcOutOfRange pc => inspectCall "PcOutOfRange" (toString pc)
  | unsupportedCall pc => inspectRecord "UnsupportedCall" [("pc", toString pc)]
  | helperFailed id reason =>
    inspectRecord "HelperFailed" [("id", toString id.toNat), ("reason", quoted reason)]
  | invalidTransition detail => inspectCall "InvalidTransition" (quoted detail)
  | contextTooLarge size =>
    inspectRecord "ContextTooLarge" [("got", toString size), ("max", toString maxContext)]

def Trap.inspect : Trap → String
  | noEntryPoint => "NoEntryPoint"
  | arityMismatch expected got =>
    inspectRecord "ArityMismatch" [("expected", toString expected), ("got", toString got)]
  | unknownHelper id => inspectRecord "UnknownHelper" [("id", toString id.toNat)]
  | signatureMismatch id declared registered =>
    inspectRecord "SignatureMismatch"
      [("id", toString id.toNat), ("declared", declared.inspect),
       ("registered", registered.inspect)]
  | fault cause => inspectCall "Fault" cause.inspect

/-- The function of a helper cannot be shown; two dots stand for it. -/
def Helper.inspect (h : Helper) : String :=
  "HelperObj \x7b name: " ++ quoted h.name ++ ", signature: " ++ h.signature.inspect ++ ", .. \x7d"

end Ebpf
