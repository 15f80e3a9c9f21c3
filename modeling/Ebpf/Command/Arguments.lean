import Ebpf.Command.Run
import Ebpf.Text.Numeral

/-! # Command lines

The first argument names the command. The others are taken from the left, and the first that
does not fit decides, unless help is asked for before. Options stand anywhere; an option that
takes a value has it behind `=` or as the next argument, which then must not look like an
option. Everything behind `--` is positional.
-/

namespace Ebpf.Command

inductive Request where
  | run (options : RunOptions) (json : Bool)
  | verify (path : String) (config : Option String)
  | disassemble (path : String)
  | helpers (config : Option String) (json : Bool)
  deriving DecidableEq

inductive Usage where
  | help
  | wrong
  deriving DecidableEq, Repr

/-- What an option does to the settings that are being read. A value may be refused. -/
inductive OptionKind (α : Type) where
  | flag (set : α → α)
  | value (set : String → α → Option α)

structure CommandOption (α : Type) where
  name : String
  kind : OptionKind α
  /-- May be given more than once. -/
  repeatable : Bool := false

structure Progress (α : Type) where
  settings : α
  /-- What the positional argument does, as long as it is missing. -/
  positional : Option (String → α → α)
  /-- The names of the options so far. -/
  given : List String := []

def looksLikeOption (arg : String) : Bool := arg.startsWith "-" && arg != "-"

/-- The name of a long option and what stands behind `=`. -/
def splitOption (arg : String) : String × Option String :=
  let cs := arg.toList.drop 2
  let name := cs.takeWhile (· != '=')
  (String.ofList name,
    if name.length = cs.length then none else some (String.ofList (cs.drop (name.length + 1))))

namespace Progress

variable {α : Type}

def takePositional (p : Progress α) (arg : String) : Except Usage (Progress α) :=
  match p.positional with
  | some set => .ok { p with settings := set arg p.settings, positional := none }
  | none => .error .wrong

def takeOption (p : Progress α) (o : CommandOption α) (change : α → Option α) :
    Except Usage (Progress α) :=
  if !o.repeatable && p.given.contains o.name then .error .wrong
  else
    match change p.settings with
    | some settings => .ok { p with settings, given := o.name :: p.given }
    | none => .error .wrong

def finish (p : Progress α) : Except Usage α :=
  if p.positional.isSome then .error .wrong else .ok p.settings

def read (options : List (CommandOption α)) (p : Progress α) : List String → Except Usage α
  | [] => p.finish
  | arg :: rest =>
    if arg = "--" then do (← rest.foldlM takePositional p).finish
    else if !looksLikeOption arg then do (← p.takePositional arg).read options rest
    else if !arg.startsWith "--" then .error (if arg.startsWith "-h" then .help else .wrong)
    else
      let (name, attached) := splitOption arg
      if name = "help" then .error (if attached.isSome then .wrong else .help)
      else
        match options.find? (·.name == name) with
        | none => .error .wrong
        | some o =>
          match o.kind, attached, rest with
          | .flag set, none, rest => do
            (← p.takeOption o fun settings => some (set settings)).read options rest
          | .flag _, some _, _ => .error .wrong
          | .value set, some value, rest => do
            (← p.takeOption o (set value)).read options rest
          | .value set, none, value :: rest =>
            if looksLikeOption value then .error .wrong
            else do (← p.takeOption o (set value)).read options rest
          | .value _, none, [] => .error .wrong

end Progress

/-- An arity is a decimal number with an optional sign, from 0 to 255. -/
def arity? (text : String) : Option UInt8 :=
  let (negative, digits) := match text.toList with
    | '-' :: cs => (true, cs)
    | '+' :: cs => (false, cs)
    | cs => (false, cs)
  let n := digits.foldl (fun n c => 10 * n + (c.toNat - '0'.toNat)) 0
  if digits.isEmpty || !digits.all Char.isDigit || 255 < n || (negative && n != 0) then none
  else some (UInt8.ofNat n)

def argumentWords? (text : String) : Option (List UInt64) :=
  (text.splitOn ",").mapM fun word => (parseWord word).toOption

def runOptions : List (CommandOption (RunOptions × Bool)) :=
  [{ name := "args", repeatable := true
     kind := .value fun text (o, json) =>
       (argumentWords? text).map fun words => ({ o with args := o.args ++ words }, json) },
   { name := "config"
     kind := .value fun path (o, json) => some ({ o with config := some path }, json) },
   { name := "data"
     kind := .value fun path (o, json) => some ({ o with data := some path }, json) },
   { name := "arity"
     kind := .value fun text (o, json) =>
       (arity? text).map fun arity => ({ o with arity := some arity }, json) },
   { name := "void", kind := .flag fun (o, json) => ({ o with void := true }, json) },
   { name := "json", kind := .flag fun (o, _) => (o, true) }]

def readRun (args : List String) : Except Usage Request := do
  let p : Progress (RunOptions × Bool) :=
    { settings := ({ path := "" }, false)
      positional := some fun path (o, json) => ({ o with path }, json) }
  let (options, json) ← p.read runOptions args
  return .run options json

def readVerify (args : List String) : Except Usage Request := do
  let p : Progress (String × Option String) :=
    { settings := ("", none), positional := some fun path (_, config) => (path, config) }
  let (path, config) ← p.read
    [{ name := "config", kind := .value fun config (path, _) => some (path, some config) }] args
  return .verify path config

def readDisassemble (args : List String) : Except Usage Request := do
  let p : Progress String := { settings := "", positional := some fun path _ => path }
  return .disassemble (← p.read [] args)

def readHelpers (args : List String) : Except Usage Request := do
  let p : Progress (Option String × Bool) := { settings := (none, false), positional := none }
  let (config, json) ← p.read
    [{ name := "config", kind := .value fun config (_, json) => some (some config, json) },
     { name := "json", kind := .flag fun (config, _) => (config, true) }] args
  return .helpers config json

def helpTopics : List String := ["run", "verify", "disassemble", "helpers", "help"]

def Request.ofArguments : List String → Except Usage Request
  | "run" :: args => readRun args
  | "verify" :: args => readVerify args
  | "disassemble" :: args => readDisassemble args
  | "helpers" :: args => readHelpers args
  | ["help"] => .error .help
  | ["help", topic] => .error (if helpTopics.contains topic then .help else .wrong)
  | "help" :: _ => .error .wrong
  | arg :: _ =>
    .error (if arg = "--help" ∨ arg.startsWith "-h" then .help else .wrong)
  | [] => .error .wrong

def Request.paths : Request → List String
  | run options _ => [options.path] ++ options.config.toList ++ options.data.toList
  | verify path config => path :: config.toList
  | disassemble path => [path]
  | helpers config _ => config.toList

end Ebpf.Command
