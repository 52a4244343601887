import Chip8.Clock
import Chip8.Listener

namespace Chip8

def traceDepth : Nat :=
  1000

/-- The newest lines of a trace, oldest first. -/
structure Trace where
  lines : Array String := #[]

namespace Trace

/-- Adds a line. If the trace is full, its oldest line goes. -/
def push (t : Trace) (line : String) : Trace :=
  if t.lines.size < traceDepth then ⟨t.lines.push line⟩
  else ⟨(t.lines.extract 1 t.lines.size).push line⟩

end Trace

/-- The settings of an emulator. They outlive the loading of programs. -/
structure Config where
  speed : SpeedRequest := .number Preset.normal.rate
  timerRate : Number := .int 60
  strictLoad : Bool := false
  tracing : Bool := false

/-- A machine and its surroundings. -/
structure Emulator where
  machine : Machine
  clock : Clock
  strictLoad : Bool
  tracing : Bool
  trace : Trace := {}
  listeners : Listeners := {}
  notices : Array Notice := #[]
  log : Array Record := #[]

/-- The answer to a call: a value or an error, and the emulator afterwards. -/
abbrev Reply (α : Type) :=
  Except Error α × Emulator

def Reply.map {α β : Type} (f : α → β) (r : Reply α) : Reply β :=
  (r.1.map f, r.2)

namespace Emulator

def new (config : Config) (random : RandomSource) : Except Error Emulator := do
  let speed ← Speed.parse config.speed
  let clock ← Clock.new (.int speed.value) config.timerRate
  return {
    machine := { random }
    clock
    strictLoad := config.strictLoad
    tracing := config.tracing }

def note (e : Emulator) (level : Level) (message : String) : Emulator :=
  { e with log := e.log.push ⟨level, emulatorLogger, message⟩ }

/-- Returns the machine, the clock and the trace to their state at power on. The random source and
the rate stay. -/
def reset (e : Emulator) : Emulator :=
  { e with
    machine := { random := e.machine.random }
    clock := e.clock.restart
    trace := {} }

/-- The clock for a requested speed, or the present one. -/
def clockFor (e : Emulator) : Option SpeedRequest → Except Error Clock
  | none => .ok e.clock
  | some request => do
    let speed ← Speed.parse request
    Clock.new (.int speed.value) e.clock.timerRate

/-- Warns of a program that is cut. -/
def warned (e : Emulator) (program : List UInt8) : Emulator :=
  if program.length > maxProgramSize then
    e.note .warning ("Program is " ++ toString program.length ++ " bytes, truncating to "
      ++ toString maxProgramSize)
  else e

/-- Resets the emulator and loads a program, at a new speed if one is given. A program that is too
large is cut, or refused by a strict emulator; it is refused before the speed is looked at, and a
refusal resets nothing. -/
def load (e : Emulator) (program : List UInt8) (speed : Option SpeedRequest) : Reply Unit :=
  if program.length > maxProgramSize ∧ e.strictLoad then
    (.error (.programTooLarge program.length maxProgramSize), e)
  else
    let e := e.warned program
    match e.clockFor speed with
    | .error err => (.error err, e)
    | .ok clock =>
      let e := reset { e with clock }
      let (loaded, memory) := e.machine.memory.loadProgram program
      let e := { e with machine := { e.machine with memory } }
      (.ok (), e.note .info ("Loaded " ++ toString loaded ++ "-byte program at $200 ("
        ++ toString e.clock.rate ++ " instructions/s)"))

/-- Passes a call on to the keypad. -/
def onKeypad (e : Emulator) (call : Keypad → Except Error Unit × Keypad) : Reply Unit :=
  let (answer, keypad) := call e.machine.keypad
  (answer, { e with machine := { e.machine with keypad } })

def keyDown (e : Emulator) (value : HostValue) : Reply Unit :=
  e.onKeypad (·.keyDown value)

def keyUp (e : Emulator) (value : HostValue) : Reply Unit :=
  e.onKeypad (·.keyUp value)

def addListener (e : Emulator) (event : Event) (l : Listener) : Emulator :=
  { e with listeners := e.listeners.add event l }

def removeListener (e : Emulator) (event : Event) (name : Option String) : Emulator :=
  { e with listeners := e.listeners.remove event name }

def stopped (e : Emulator) : Bool :=
  e.machine.stop.isSome

theorem stopped_eq_false_iff (e : Emulator) : e.stopped = false ↔ e.machine.stop = none := by
  rw [stopped, Option.isSome_eq_false_iff, Option.isNone_iff_eq_none]

def halted (e : Emulator) : Bool :=
  e.machine.stop = some .halted

def stopReason (e : Emulator) : Option StopReason :=
  e.machine.stop.map Stop.reason

def fault? (e : Emulator) : Option Fault :=
  e.machine.stop.bind Stop.fault?

def nextWord (e : Emulator) : Nat :=
  e.machine.memory.readWord e.machine.registers.pc

end Emulator

end Chip8
