import Ebpf.Toml.Scalar
import Ebpf.Toml.Tree

/-! # TOML documents

The grammar of keys, values and lines. Arrays and braces nest to a fixed depth, and keys
have a greatest number of parts.
-/

namespace Ebpf.Toml

/-- Arrays and braces within each other, and parts of a key. -/
def maxDepth : Nat := 79

def isBareKeyChar (c : Char) : Bool := c.isAlphanum || c == '_' || c == '-'

namespace Parser

def keyPart : Parser String := do
  if (← startsWith ['"']) || (← startsWith ['\'']) then shortString
  else
    let cs ← takeWhile isBareKeyChar
    if cs.isEmpty then failure else return String.ofList cs

def keyParts : Nat → Parser (List String)
  | 0 => failure
  | fuel + 1 => do
    spaces
    let part ← keyPart
    spaces
    if ← startsWith ['.'] then
      char '.'
      return part :: (← keyParts fuel)
    else return [part]

/-- A key: the path of tables in front of its last part, and that part. -/
def key : Parser (List String × String) := do
  let parts ← keyParts maxDepth
  match parts.reverse with
  | last :: path => return (path.reverse, last)
  | [] => failure

def arrayItems (item : Parser Value) : Nat → Parser (List Value)
  | 0 => failure
  | fuel + 1 => do
    itemSpace
    if ← startsWith [']'] then
      char ']'
      return []
    else
      let first ← item
      itemSpace
      if ← startsWith [','] then
        char ','
        return first :: (← arrayItems item fuel)
      else
        char ']'
        return [first]

/-- The pairs of an inline table behind its brace, of which at least one is left. -/
def inlinePairs (item : Parser Value) : Nat → Entries → Parser Entries
  | 0, _ => failure
  | fuel + 1, entries => do
    let (path, last) ← key
    char '='
    spaces
    let value ← item
    spaces
    let entries ← (addValue path last value entries : Option Entries)
    if ← startsWith [','] then
      char ','
      inlinePairs item fuel entries
    else
      char '\x7d'
      return entries

/-- A value in which brackets and braces nest to the given depth. -/
def value : Nat → Parser Value
  | 0 => do
    if (← startsWith ['"']) || (← startsWith ['\'']) then return .string (← string) else scalar
  | depth + 1 => do
    if ← startsWith ['['] then
      char '['
      return .array (← arrayItems (value depth) (← remaining))
    else if ← startsWith ['\x7b'] then
      char '\x7b'
      spaces
      if ← startsWith ['\x7d'] then
        char '\x7d'
        return .table .inline []
      else return .table .inline (← inlinePairs (value depth) (← remaining) [])
    else if (← startsWith ['"']) || (← startsWith ['\'']) then return .string (← string)
    else scalar

def line (d : Draft) : Parser Draft := do
  spaces
  if (← atEnd) || (← startsWith ['#']) || (← startsWith ['\n']) || (← startsWith ['\r']) then
    lineRest
    return d
  else if ← startsWith ['[', '['] then
    literal ['[', '[']
    let (path, last) ← key
    literal [']', ']']
    lineRest
    (d.openRepeated (path ++ [last]) : Option Draft)
  else if ← startsWith ['['] then
    char '['
    let (path, last) ← key
    char ']'
    lineRest
    (d.openTable (path ++ [last]) : Option Draft)
  else
    let (path, last) ← key
    char '='
    spaces
    let value ← value maxDepth
    lineRest
    (d.add path last value : Option Draft)

def lines : Nat → Draft → Parser Draft
  | 0, d => return d
  | fuel + 1, d => do
    let d ← line d
    if ← atEnd then return d else lines fuel d

end Parser

/-- Reads a document. A byte order mark may stand in front of it. -/
def parse (text : String) : Option Entries := do
  let cs := match text.toList with
    | '\ufeff' :: cs => cs
    | cs => cs
  let (draft, _) ← (Parser.lines (cs.length + 1) {}).run cs
  draft.close

end Ebpf.Toml
