import Chip8.FilePath

/-!
Files in directories. A path is resolved by a walk, which needs a directory at every step; a file is
opened at the place that the names of its path spell out. The current directory and those around it
are there, and of those around it nothing else is known.
-/

namespace Chip8

/-- Where names start: at the root, or so many directories above the current one. -/
inductive Origin
  | root
  | above (levels : Nat)
  deriving DecidableEq, Repr

structure Place where
  origin : Origin := .above 0
  names : List String := []
  deriving DecidableEq, Repr

namespace Place

/-- The directory around a place. The root is in itself. -/
def parent (p : Place) : Place :=
  match p.names, p.origin with
  | [], .root => p
  | [], .above levels => { origin := .above (levels + 1) }
  | names, _ => { p with names := names.dropLast }

/-- The place that a name leads to. Two dots lead back. -/
def enter (p : Place) (name : String) : Place :=
  if name = ".." then p.parent else { p with names := p.names ++ [name] }

def start (path : FilePath) : Place :=
  { origin := if path.root = "" then .above 0 else .root }

/-- The place that the names of a path spell out. -/
def ofPath (path : FilePath) : Place :=
  path.names.foldl enter (start path)

def isInside (p outer : Place) : Bool :=
  p.origin = outer.origin && outer.names.isPrefixOf p.names && outer.names.length < p.names.length

end Place

/-- Files with their contents, and the directories that were made. -/
structure FileTree (α : Type) where
  files : List (Place × α) := []
  directories : List Place := []

namespace FileTree

variable {α : Type}

def find? (t : FileTree α) (place : Place) : Option α :=
  (t.files.find? fun f => f.1 = place).map Prod.snd

/-- Whether a place is a directory: an origin, one that was made, or one with a file in it. -/
def isDirectory (t : FileTree α) (place : Place) : Bool :=
  place.names.isEmpty || t.directories.contains place || t.files.any fun f => f.1.isInside place

def isTaken (t : FileTree α) (place : Place) : Bool :=
  (t.find? place).isSome || t.isDirectory place

def insert (t : FileTree α) (place : Place) (content : α) : FileTree α :=
  { t with files := (place, content) :: t.files.filter fun f => f.1 ≠ place }

def modify (t : FileTree α) (place : Place) (f : α → α) : FileTree α :=
  { t with files := t.files.map fun g => if g.1 = place then (g.1, f g.2) else g }

/-- One step of a walk along a path, from a directory to what a name leads to. -/
def step (t : FileTree α) (path : FilePath) (here : Place) (name : String) :
    Except FileError Place :=
  if !t.isDirectory here then
    .error (.refused (if (t.find? here).isSome then .notDirectory else .missing) path)
  else if name.utf8ByteSize > FilePath.maxNameBytes then .error (.refused .nameTooLong path)
  else .ok (here.enter name)

/-- The place that a walk along a path ends at. There need be nothing. -/
def resolve (t : FileTree α) (path : FilePath) : Except FileError Place :=
  if path.text.toList.contains '\x00' then .error .nullCharacter
  else if path.text.utf8ByteSize > FilePath.maxTextBytes then .error (.refused .nameTooLong path)
  else path.names.foldlM (t.step path) (Place.start path)

def read (t : FileTree α) (path : FilePath) : Except FileError α := do
  let place ← t.resolve path
  match t.find? place with
  | some content => return content
  | none => .error (.refused (if t.isDirectory place then .isDirectory else .missing) path)

/-- Makes a directory at the end of a path, where there must be nothing. -/
def makeDirectory (t : FileTree α) (path : FilePath) : Except FileError (FileTree α) := do
  let place ← t.resolve path
  if t.isTaken place then .error (.refused .present path)
  else return { t with directories := place :: t.directories }

def ensureDirectory (t : FileTree α) (path : FilePath) : Except FileError (FileTree α) :=
  match t.makeDirectory path with
  | .ok made => .ok made
  | .error e =>
    match t.resolve path with
    | .ok place => if t.isDirectory place then .ok t else .error e
    | .error _ => .error e

/-- Makes a directory at the end of a path, if there is none, and before it those that it is missing
in. -/
def ensureDirectories (t : FileTree α) (path : FilePath) : Except FileError (FileTree α) :=
  match t.ensureDirectory path with
  | .error (.refused .missing refused) =>
    if _ : path.names = [] then .error (.refused .missing refused)
    else do
      let outer ← t.ensureDirectories path.parent
      outer.ensureDirectory path
  | answer => answer
termination_by path.names.length
decreasing_by
  have positive := List.length_pos_iff.mpr ‹¬path.names = []›
  simp only [FilePath.parent, List.length_dropLast]
  omega

/-- Opens the file of a path to append to it: the file is made if there is none. The answer holds
its place. -/
def openFile (t : FileTree α) (path : FilePath) (empty : α) :
    Except FileError (Place × FileTree α) :=
  let place := Place.ofPath path
  if path.text.toList.contains '\x00' then .error .nullCharacter
  else if place.names.any (·.utf8ByteSize > FilePath.maxNameBytes) then
    .error (.refused .nameTooLong path)
  else if t.isDirectory place then .error (.refused .isDirectory path)
  else if (t.find? place).isSome then .ok (place, t)
  else .ok (place, t.insert place empty)

end FileTree

end Chip8
