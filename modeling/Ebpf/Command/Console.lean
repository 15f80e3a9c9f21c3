import Ebpf.Command.Arguments
import Ebpf.Command.Inspect

/-! # What a command prints

The exit code is 0 for success, 1 for a failed command and 2 for a wrong command line.
-/

namespace Ebpf.Command

structure Console where
  code : UInt32
  stdout : String
  stderr : String
  deriving DecidableEq

namespace Console

def unlines (lines : List String) : String := String.join (lines.map (· ++ "\n"))

def success (lines : List String) : Console := ⟨0, unlines lines, ""⟩

def failure (lines : List String) (e : Error) : Console := ⟨1, unlines lines, e.report⟩

def ofLines : Except Error (List String) → Console
  | .ok lines => success lines
  | .error e => failure [] e

/-- Prints the report of a run. A trap makes the command fail after the report. -/
def ofRun (json : Bool) : Except Error RunReport → Console
  | .error e => failure [] e
  | .ok report =>
    let lines := if json then [report.json.pretty] else report.text?.toList
    match report.trap? with
    | none => success lines
    | some cause => failure lines (.trapped report.entry cause)

end Console

def perform (files : FileStore) (readings : Readings) : Request → Console
  | .run options json => .ofRun json (execute Config.parse files readings options)
  | .verify path config => .ofLines ((verify Config.parse files readings path config).map linkLines)
  | .disassemble path => .ofLines (disassemble files path)
  | .helpers config json =>
    .ofLines ((helperEntries Config.parse files readings config).map fun entries =>
      if json then [(Json.array (entries.map (·.json))).pretty] else helperLines entries)

def console (files : FileStore) (readings : Readings) (args : List String) : Console :=
  match Request.ofArguments args with
  | .ok request => perform files readings request
  | .error .help => ⟨0, "", ""⟩
  | .error .wrong => ⟨2, "", ""⟩

end Ebpf.Command
