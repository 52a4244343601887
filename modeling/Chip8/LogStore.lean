import Chip8.FileTree
import Chip8.Log

namespace Chip8

/-- A file: the bytes it was given with, and the log records that were appended. -/
structure File where
  bytes : List UInt8 := []
  records : Array Record := #[]

/-- The present setup, if there was one, with the place of its file, and all files. -/
structure LogStore where
  setup : Option LogSetup := none
  place : Option Place := none
  files : FileTree File := {}

namespace LogStore

/-- Replaces the setup. Its file is opened, in a directory that is made if there is none. -/
def configure (s : LogStore) (setup : LogSetup) : Except FileError LogStore :=
  match setup.file with
  | none => .ok { s with setup := some setup, place := none }
  | some text => do
    let path := FilePath.ofString text
    let files ← s.files.ensureDirectories path.parent
    let (place, files) ← files.openFile path {}
    return { setup := some setup, place := some place, files }

/-- Logs records. The answer holds the levels of those that are shown on the console. -/
def log (s : LogStore) (records : Array Record) : Array Level × LogStore :=
  match s.setup with
  | none => (#[], s)
  | some setup =>
    let shown := (records.filter setup.shows).map Record.level
    match s.place with
    | none => (shown, s)
    | some place =>
      let append := fun (file : File) =>
        { file with records := file.records ++ records.filter setup.accepts }
      (shown, { s with files := s.files.modify place append })

def recordsIn (s : LogStore) (path : String) : Option (List Record) :=
  match s.files.read (.ofString path) with
  | .ok file => some file.records.toList
  | .error _ => none

end LogStore

end Chip8
