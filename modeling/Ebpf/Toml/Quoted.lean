import Ebpf.Toml.Parser

/-! # TOML strings

Strings stand in one or in three quotes. In double quotes a backslash begins an escape; in
single quotes every character stands for itself. Between three quotes lines may end, and up
to two quotes may stand alone.
-/

namespace Ebpf.Toml

def hexValue? (c : Char) : Option Nat :=
  if '0' ≤ c ∧ c ≤ '9' then some (c.toNat - '0'.toNat)
  else if 'a' ≤ c ∧ c ≤ 'f' then some (c.toNat - 'a'.toNat + 10)
  else if 'A' ≤ c ∧ c ≤ 'F' then some (c.toNat - 'A'.toNat + 10)
  else none

def codePoint? (digits : List Char) : Option Char := do
  let n ← digits.foldlM (fun n c => (hexValue? c).map (16 * n + ·)) 0
  if n.isValidChar then some (Char.ofNat n) else none

def simpleEscape? : Char → Option Char
  | 'b' => some '\x08'
  | 't' => some '\t'
  | 'n' => some '\n'
  | 'f' => some '\x0c'
  | 'r' => some '\r'
  | '"' => some '"'
  | '\\' => some '\\'
  | _ => none

/-- The text of a one-line string in double quotes, behind the opening quote. -/
def basicText : Parser (List Char)
  | '"' :: cs => some ([], cs)
  | '\\' :: 'u' :: a :: b :: c :: d :: cs => do
    let (text, rest) ← basicText cs
    return ((← codePoint? [a, b, c, d]) :: text, rest)
  | '\\' :: 'U' :: a :: b :: c :: d :: e :: f :: g :: h :: cs => do
    let (text, rest) ← basicText cs
    return ((← codePoint? [a, b, c, d, e, f, g, h]) :: text, rest)
  | '\\' :: c :: cs => do
    let (text, rest) ← basicText cs
    return ((← simpleEscape? c) :: text, rest)
  | c :: cs => do
    if isTextChar c && c != '\\' then
      let (text, rest) ← basicText cs
      return (c :: text, rest)
    else none
  | [] => none

def literalText : Parser (List Char)
  | '\'' :: cs => some ([], cs)
  | c :: cs => do
    if isTextChar c then
      let (text, rest) ← literalText cs
      return (c :: text, rest)
    else none
  | [] => none

/-- Up to two more quotes belong to the text when a string ends in a run of quotes. -/
def extraQuotes (quote : Char) : List Char → List Char × List Char
  | a :: b :: cs =>
    if a = quote then if b = quote then ([a, b], cs) else ([a], b :: cs) else ([], a :: b :: cs)
  | [a] => if a = quote then ([a], []) else ([], [a])
  | [] => ([], [])

def lineEndsHere (cs : List Char) : Bool :=
  match cs.dropWhile isSpace with
  | '\n' :: _ => true
  | '\r' :: '\n' :: _ => true
  | _ => false

/-- The text of a string in three double quotes, behind the opening quotes. A backslash at
the end of a line joins it with the next word; `joining` holds until that word. -/
def longBasicText (joining : Bool) : Parser (List Char)
  | '"' :: '"' :: '"' :: cs => some (extraQuotes '"' cs)
  | '\r' :: '\n' :: cs => do
    let (text, rest) ← longBasicText joining cs
    return (if joining then text else '\n' :: text, rest)
  | '\n' :: cs => do
    let (text, rest) ← longBasicText joining cs
    return (if joining then text else '\n' :: text, rest)
  | '\\' :: 'u' :: a :: b :: c :: d :: cs => do
    let (text, rest) ← longBasicText false cs
    return ((← codePoint? [a, b, c, d]) :: text, rest)
  | '\\' :: 'U' :: a :: b :: c :: d :: e :: f :: g :: h :: cs => do
    let (text, rest) ← longBasicText false cs
    return ((← codePoint? [a, b, c, d, e, f, g, h]) :: text, rest)
  | '\\' :: c :: cs => do
    if lineEndsHere (c :: cs) then longBasicText true cs
    else
      let (text, rest) ← longBasicText false cs
      return ((← simpleEscape? c) :: text, rest)
  | c :: cs => do
    if joining && isSpace c then longBasicText true cs
    else if isTextChar c && c != '\\' then
      let (text, rest) ← longBasicText false cs
      return (c :: text, rest)
    else none
  | [] => none

def longLiteralText : Parser (List Char)
  | '\'' :: '\'' :: '\'' :: cs => some (extraQuotes '\'' cs)
  | '\r' :: '\n' :: cs => do
    let (text, rest) ← longLiteralText cs
    return ('\n' :: text, rest)
  | c :: cs => do
    if isTextChar c || c == '\n' then
      let (text, rest) ← longLiteralText cs
      return (c :: text, rest)
    else none
  | [] => none

namespace Parser

def shortString : Parser String := do
  if ← startsWith ['"'] then
    char '"'
    return String.ofList (← basicText)
  else
    char '\''
    return String.ofList (← literalText)

/-- Any string. A line end right behind three opening quotes is not part of it. -/
def string : Parser String := do
  if ← startsWith ['"', '"', '"'] then
    literal ['"', '"', '"']
    newline <|> pure ()
    return String.ofList (← longBasicText false)
  else if ← startsWith ['\'', '\'', '\''] then
    literal ['\'', '\'', '\'']
    newline <|> pure ()
    return String.ofList (← longLiteralText)
  else shortString

end Parser

end Ebpf.Toml
