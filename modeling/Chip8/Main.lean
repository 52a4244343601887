import Chip8.CommandLine.Session

namespace Chip8

def readProgram (path : String) : IO (Except FileError (List UInt8)) := do
  let file := FilePath.ofString path
  if path.toList.contains '\x00' then return .error .nullCharacter
  try
    let bytes ← IO.FS.readBinFile file.text
    return .ok bytes.toList
  catch
    | .inappropriateType _ 21 _ => return .error (.refused .isDirectory file)
    | .inappropriateType .. => return .error (.refused .notDirectory file)
    | .invalidArgument .. => return .error (.refused .nameTooLong file)
    | _ => return .error (.refused .missing file)

/-- Opens the log file of a setup, if there is one, in a directory that is made if there is none. -/
def openLog (setup : LogSetup) : IO (Option IO.FS.Handle) := do
  match setup.file with
  | none => return none
  | some path =>
    let file := FilePath.ofString path
    IO.FS.createDirAll file.parent.text
    return some (← IO.FS.Handle.mk file.text .append)

def writeLog (setup : LogSetup) (file : Option IO.FS.Handle) (records : Array Record) :
    IO Unit := do
  for r in records do
    if setup.shows r then
      IO.eprintln (r.level.name ++ ": " ++ r.message)
    if let some handle := file then
      if setup.accepts r then
        handle.putStrLn (r.level.paddedName ++ " | " ++ r.logger ++ " | " ++ r.message)

def runCommand (a : CommandLine.Arguments) : IO UInt32 := do
  let log ← openLog a.logSetup
  let program ← readProgram a.program
  let seed ← IO.rand 0 0xFFFFFFFF
  let report := CommandLine.execute a program seed
  IO.print report.output
  writeLog a.logSetup log report.log
  match report.status with
  | .ok status => return UInt32.ofNat status
  | .error e => do
    IO.eprintln e.message
    return 1

end Chip8

def main (words : List String) : IO UInt32 := do
  match Chip8.CommandLine.readArguments words with
  | .ok a => Chip8.runCommand a
  | .error (.information text) => do
    IO.print text
    return 0
  | .error (.usage program message) => do
    IO.eprintln (program ++ ": error: " ++ message)
    return 2
