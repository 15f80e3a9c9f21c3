import Ebpf.Toml.Moment
import Ebpf.Toml.Value

/-! # TOML scalars

A value that is not quoted or bracketed is the longest run of word characters, and the whole
run has to be a truth value, a number or a moment.
-/

namespace Ebpf.Toml

def isWordChar (c : Char) : Bool :=
  c.isAlphanum || c == '+' || c == '-' || c == '.' || c == ':' || c == '_'

def scalar? (word : List Char) : Option Value :=
  if word = ['t', 'r', 'u', 'e'] then some (.boolean true)
  else if word = ['f', 'a', 'l', 's', 'e'] then some (.boolean false)
  else
    match integer? word with
    | some value => some (.integer value)
    | none =>
      if isFloat word then some (.float (String.ofList word))
      else if isMoment word then some (.moment (String.ofList word))
      else none

namespace Parser

/-- A word; a date takes a time behind one blank along. -/
def word : Parser (List Char) := do
  let first ← takeWhile isWordChar
  if splitDate first = some [] then
    (do
      char ' '
      let second ← takeWhile isWordChar
      if second.isEmpty then failure else return first ++ ' ' :: second) <|> return first
  else return first

def scalar : Parser Value := do
  match scalar? (← word) with
  | some value => return value
  | none => failure

end Parser

end Ebpf.Toml
