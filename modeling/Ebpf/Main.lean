import Ebpf.Command.Console

/-! # The command line

Reads the files that a command names, carries the command out and prints the result.
-/

namespace Ebpf

open Command

def readFile (path : String) : IO (Except FileError (List UInt8)) := do
  if path.contains '\x00' then return .error .zeroByte
  try
    return .ok (← IO.FS.readBinFile path).toList
  catch e =>
    return .error <| match e with
      | .noFileOrDirectory .. => .notFound
      | .permissionDenied .. => .permissionDenied
      | .inappropriateType _ 20 _ => .notDirectory
      | .inappropriateType .. => .isDirectory
      | .invalidArgument _ 36 _ => .nameTooLong
      | e => .other (toString e)

def readFiles (paths : List String) : IO FileStore := do
  let contents ← paths.mapM fun path => do return (path, ← readFile path)
  return fun path => (contents.lookup path).getD (.error .notFound)

/-- A random number, and the time since the first look at the clock. -/
def takeReadings : IO Readings := do
  let start ← IO.monoNanosNow
  let random ← IO.rand 0 (UInt32.size - 1)
  let now ← IO.monoNanosNow
  return { random := UInt32.ofNat random, nanoseconds := UInt64.ofNat (now - start) }

def runCommandLine (args : List String) : IO UInt32 := do
  let paths := match Request.ofArguments args with
    | .ok request => request.paths
    | .error _ => []
  let result := console (← readFiles paths) (← takeReadings) args
  IO.print result.stdout
  IO.eprint result.stderr
  return result.code

end Ebpf

def main (args : List String) : IO UInt32 := Ebpf.runCommandLine args
