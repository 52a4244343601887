import Chip8.Text.Quoted

namespace Chip8

/-- A path: the slashes of its root, and its names. -/
structure FilePath where
  root : String
  names : List String
  deriving DecidableEq, Repr

namespace FilePath

/-- Reads a path. Empty names and names of one dot are left out. Two slashes at the front, and not
more, are a root of their own. -/
def ofString (s : String) : FilePath :=
  let slashes := (s.toList.takeWhile (· = '/')).length
  { root := if slashes = 0 then "" else if slashes = 2 then "//" else "/"
    names := (s.splitOn "/").filter fun name => name ≠ "" ∧ name ≠ "." }

def text (p : FilePath) : String :=
  if p.root = "" ∧ p.names = [] then "." else p.root ++ "/".intercalate p.names

def parent (p : FilePath) : FilePath :=
  { p with names := p.names.dropLast }

def maxNameBytes : Nat :=
  255

def maxTextBytes : Nat :=
  4095

end FilePath

inductive Refusal
  | missing
  | present
  | notDirectory
  | isDirectory
  | nameTooLong
  deriving DecidableEq, Repr

def Refusal.message : Refusal → String
  | .missing => "[Errno 2] No such file or directory"
  | .present => "[Errno 17] File exists"
  | .notDirectory => "[Errno 20] Not a directory"
  | .isDirectory => "[Errno 21] Is a directory"
  | .nameTooLong => "[Errno 36] File name too long"

/-- What can go wrong with a file: its path is refused, or holds a null character and is no path at
all. -/
inductive FileError
  | refused (reason : Refusal) (path : FilePath)
  | nullCharacter
  deriving DecidableEq, Repr

def FileError.message : FileError → String
  | .refused reason path => reason.message ++ ": " ++ Text.quoted path.text
  | .nullCharacter => "embedded null byte"

end Chip8
