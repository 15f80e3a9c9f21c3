/-! # TOML values

A document is a table. Each table remembers how it came about, since that decides whether
later lines may add to it.
-/

namespace Ebpf.Toml

inductive TableOrigin where
  /-- Opened by a header of its own. -/
  | header
  /-- Passed through by a longer header. -/
  | implied
  /-- Passed through by a dotted key. -/
  | dotted
  /-- Written in braces. -/
  | inline
  deriving DecidableEq, Repr

/-- Numbers with a fraction or an exponent and moments in time keep their text. -/
inductive Value where
  | string (text : String)
  | integer (value : Int)
  | float (text : String)
  | boolean (value : Bool)
  | moment (text : String)
  | array (items : List Value)
  | table (origin : TableOrigin) (entries : List (String × Value))
  /-- The tables of all headers in double brackets with one key. -/
  | tables (items : List (List (String × Value)))

abbrev Entries := List (String × Value)

namespace Entries

def lookup (key : String) (entries : Entries) : Option Value :=
  (entries.find? (·.1 == key)).map (·.2)

def set (key : String) (value : Value) : Entries → Entries
  | [] => [(key, value)]
  | (k, v) :: rest => if k = key then (k, value) :: rest else (k, v) :: set key value rest

def add (key : String) (value : Value) (entries : Entries) : Option Entries :=
  match lookup key entries with
  | some _ => none
  | none => some (entries ++ [(key, value)])

end Entries

end Ebpf.Toml
