/-! # Parsers of TOML text

A parser takes characters from the front of its input and leaves the rest; a parser that
fails leaves the input for another one.
-/

namespace Ebpf.Toml

abbrev Parser (α : Type) := StateT (List Char) Option α

namespace Parser

def literal (text : List Char) : Parser Unit := fun cs =>
  if text.isPrefixOf cs then some ((), cs.drop text.length) else none

def char (c : Char) : Parser Unit := literal [c]

def takeWhile (p : Char → Bool) : Parser (List Char) := fun cs =>
  some (cs.takeWhile p, cs.dropWhile p)

def startsWith (text : List Char) : Parser Bool := fun cs => some (text.isPrefixOf cs, cs)

def atEnd : Parser Bool := fun cs => some (cs.isEmpty, cs)

/-- How many characters are left. No repetition of parsers that take something can be
longer. -/
def remaining : Parser Nat := fun cs => some (cs.length, cs)

end Parser

def isSpace (c : Char) : Bool := c == ' ' || c == '\t'

/-- The characters of comments and strings: all but control characters, and the tab. -/
def isTextChar (c : Char) : Bool := c == '\t' || (0x20 ≤ c.toNat && c.toNat != 0x7f)

namespace Parser

def spaces : Parser Unit := do let _ ← takeWhile isSpace

/-- A line ends with a line feed, which a carriage return may precede. -/
def newline : Parser Unit := literal ['\n'] <|> literal ['\r', '\n']

def comment : Parser Unit := do
  char '#'
  let _ ← takeWhile isTextChar

/-- What may follow on a line behind a header or a value, to the end of the line or of the
document. -/
def lineRest : Parser Unit := do
  spaces
  if ← startsWith ['#'] then comment
  if ← atEnd then return () else newline

/-- Blanks, comments and line ends, at most `fuel` of them. -/
def blankLines : Nat → Parser Unit
  | 0 => return ()
  | fuel + 1 => do
    spaces
    if ← startsWith ['#'] then
      comment
      newline
      blankLines fuel
    else if (← startsWith ['\n']) || (← startsWith ['\r']) then
      newline
      blankLines fuel

def itemSpace : Parser Unit := do blankLines (← remaining)

end Parser

end Ebpf.Toml
