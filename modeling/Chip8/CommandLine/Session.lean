import Chip8.CommandLine.Arguments
import Chip8.Disassembly
import Chip8.Emulator.Run
import Chip8.LogStore

namespace Chip8.CommandLine

def commandLogger : String :=
  "chip8vm.cli"

/-- What a command leaves: text on the output, log records, and an exit status, or an error that
nothing takes care of. -/
structure Report where
  output : String := ""
  log : Array Record := #[]
  status : Except Error Nat

/-- The report of a program that cannot be read. A refused path is logged; what is no path is an
error. -/
def unreadable (e : FileError) : Report :=
  match e with
  | .refused _ _ =>
    { log := #[⟨.error, commandLogger, "Cannot read program: " ++ e.message⟩], status := .ok 1 }
  | .nullCharacter => { status := .error (.file e) }

/-- Advances by equal frames until the machine is stopped, and counts instructions onto `executed`.
The count is that of the frames that were completed. -/
def runFrames (frame : Binary64) (e : Emulator) (executed : Nat) :
    Nat → Nat × Reply Unit
  | 0 => (executed, .ok (), e)
  | count + 1 =>
    match e.advance frame with
    | (.error err, e) => (executed, .error err, e)
    | (.ok n, e) =>
      if e.stopped then (executed + n, .ok (), e) else runFrames frame e (executed + n) count

/-- The number of whole frames in some seconds, and the length of a frame. -/
def frames (seconds : Given Binary64) (framesPerSecond : Given Int) :
    Except Error (Int × Binary64) := do
  let framesPerSecond ← framesPerSecond.orError .frameRateMissing
  let framesPerSecond := max 1 framesPerSecond
  let seconds ← seconds.orError
    (if framesPerSecond < indexReach then .secondsMissing else .countOutOfReach)
  let rate ← Binary64.ofInt framesPerSecond
  let count ← (seconds.mul rate).truncate
  return (count, (Binary64.round false 1 1).div rate)

/-- The emulator of a run before its first frame: a listener on every event, the program loaded, the
keys pressed. Random bytes come from the given seed if the options name none. -/
def prepare (o : RunOptions) (program : List UInt8) (seed : Int) : Except Error Emulator := do
  let speed ← o.speed.orError .speedMissing
  let seed ← (o.seed.getD (.value seed)).orError .seedMissing
  let e ← Emulator.new { speed := .number speed.value, tracing := o.trace } (.ofSeed seed)
  let e := Event.all.foldl (fun (e : Emulator) event =>
    e.addListener event { name := event.name, event }) e
  match e.load program none with
  | (.error err, _) => .error err
  | (.ok (), e) =>
    let keypad := o.keys.foldl Keypad.press e.machine.keypad
    return { e with machine := { e.machine with keypad } }

def pixelText (o : RunOptions) (column : Nat) (on : Bool) : Except Error String :=
  (if on then o.on else o.off).orError (.pixelTextMissing column)

def rowText (o : RunOptions) (row : List Bool) : Except Error String := do
  let texts ← row.zipIdx.mapM fun (on, column) => pixelText o column on
  return String.join texts

def picture (o : RunOptions) (e : Emulator) : Except Error String := do
  let rows ← e.machine.screen.rows.mapM (rowText o)
  return "\n".intercalate rows ++ "\n" ++ e.machine.registers.text ++ "\n"

def countOf (e : Emulator) (event : Event) : Nat :=
  e.notices.foldl (fun n notice => if notice.event = event then n + 1 else n) 0

def summary (o : RunOptions) (e : Emulator) (executed : Nat) : String :=
  "DT=" ++ Hex.padded 2 e.machine.delay.value.toNat
    ++ " ST=" ++ Hex.padded 2 e.machine.sound.value.toNat
    ++ " draws=" ++ toString (countOf e .displayUpdated)
    ++ " sound_on=" ++ toString (countOf e .soundOn)
    ++ " sound_off=" ++ toString (countOf e .soundOff) ++ "\n"
    ++ (if e.halted then "Stopped: HALT after " ++ toString executed ++ " instructions\n"
      else "Ran " ++ toString executed ++ " instructions in "
        ++ ((o.seconds.toOption.map Binary64.compactText).getD "") ++ "s simulated\n")

def faultLine (e : Emulator) (executed : Nat) (err : Error) : String :=
  "Stopped: " ++ (e.stopReason.map StopReason.name).getD "" ++ " after " ++ toString executed
    ++ " instructions (" ++ err.message ++ ")\n"

/-- The report of a run that has ended: its picture, more lines, and an exit status. -/
def conclude (o : RunOptions) (e : Emulator) (lines : String) (status : Nat) : Report :=
  match picture o e with
  | .ok text => { output := text ++ lines, log := e.log, status := .ok status }
  | .error err => { log := e.log, status := .error err }

def run (o : RunOptions) (program : List UInt8) (seed : Int) : Report :=
  match prepare o program seed with
  | .error err => { status := .error err }
  | .ok e =>
    match frames o.seconds o.framesPerSecond with
    | .error err => { log := e.log, status := .error err }
    | .ok (count, frame) =>
      match runFrames frame e 0 count.toNat with
      | (executed, .error err, e) =>
        if err.isOfMachine then conclude o e (faultLine e executed err) 1
        else { log := e.log, status := .error err }
      | (executed, .ok (), e) => conclude o e (summary o e executed) 0

def list (o : ListOptions) (program : List UInt8) : Report :=
  match Disassembly.listing program o.start with
  | .ok lines => { output := String.join (lines.map (· ++ "\n")), status := .ok 0 }
  | .error e => { log := #[⟨.error, commandLogger, e.message⟩], status := .ok 1 }

/-- Does what the command line asks for, with the program as it was read and a seed to use if the
command line names none. -/
def execute (a : Arguments) (program : Except FileError (List UInt8)) (seed : Int) : Report :=
  match program with
  | .error e => unreadable e
  | .ok program =>
    match a.command with
    | some (.run o) => run o program seed
    | some (.list o) => list o program
    | none => { status := .ok 0 }

/-- What a command leaves behind: its report, the levels of the records shown on the console, and
the files. -/
structure Session where
  report : Report
  shown : Array Level := #[]
  store : LogStore

/-- Does what the command line asks for among the given files. The log is set up before the program
is read. -/
def Session.perform (a : Arguments) (files : FileTree File) (seed : Int) : Session :=
  match ({ files } : LogStore).configure a.logSetup with
  | .error e => { report := { status := .error (.file e) }, store := { files } }
  | .ok store =>
    let program := (store.files.read (.ofString a.program)).map File.bytes
    let report := execute a program seed
    let (shown, store) := store.log report.log
    { report, shown, store }

end Chip8.CommandLine
