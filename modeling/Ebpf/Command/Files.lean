/-! # Files

What commands see of the file system: a path either has bytes or cannot be read.
-/

namespace Ebpf.Command

inductive FileError where
  | notFound
  | permissionDenied
  | notDirectory
  | isDirectory
  | nameTooLong
  /-- No path holds a zero byte. -/
  | zeroByte
  /-- Read as a text, the bytes are no UTF-8. -/
  | notText
  | other (text : String)
  deriving DecidableEq

def FileError.message : FileError → String
  | notFound => "No such file or directory (os error 2)"
  | permissionDenied => "Permission denied (os error 13)"
  | notDirectory => "Not a directory (os error 20)"
  | isDirectory => "Is a directory (os error 21)"
  | nameTooLong => "File name too long (os error 36)"
  | zeroByte => "file name contained an unexpected NUL byte"
  | notText => "stream did not contain valid UTF-8"
  | other text => text

abbrev FileStore := String → Except FileError (List UInt8)

namespace FileStore

def readText (files : FileStore) (path : String) : Except FileError String := do
  let bytes ← files path
  match String.fromUTF8? bytes.toByteArray with
  | some text => return text
  | none => throw .notText

def maxPathLength : Nat := 4095

def maxPartLength : Nat := 255

/-- Follows the parts of a path through a tree of files. The directory reached so far is the
list of its parts, last first; above the root of the tree nothing is known to exist. -/
def walk (files : List (String × List UInt8)) :
    Option (List String) → List String → Except FileError (List UInt8)
  | _, [] => .error .isDirectory
  | directory?, part :: rest =>
    if part = "" ∨ part = "." then walk files directory? rest
    else if part = ".." then walk files (directory?.bind List.tail?) rest
    else if maxPartLength < part.utf8ByteSize then .error .nameTooLong
    else
      match directory? with
      | none => .error .notFound
      | some directory =>
        let name := "/".intercalate (part :: directory).reverse
        match files.lookup name with
        | some bytes => if rest.isEmpty then .ok bytes else .error .notDirectory
        | none =>
          if files.any (·.1.startsWith (name ++ "/")) then
            walk files (some (part :: directory)) rest
          else .error .notFound

def ofFiles (files : List (String × List UInt8)) : FileStore := fun path =>
  if path.contains '\x00' then .error .zeroByte
  else if path = "" then .error .notFound
  else if maxPathLength < path.utf8ByteSize then .error .nameTooLong
  else walk files (if path.startsWith "/" then none else some []) (path.splitOn "/")

end FileStore

end Ebpf.Command
