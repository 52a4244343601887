import Chip8.Emulator.Basic

/-!
Execution under a host. An instruction runs, its event goes to the listeners, and a fault is
latched; `step`, `run`, `advance` and `tick` are the host's ways to ask for it. A listener may ask
too, so what an instruction does under a host is given by what a listener does when it is called,
and that by what an instruction does under a host with one call less that may nest in it.
-/

namespace Chip8.Emulator

/-- The line of a trace: address, word, instruction and registers before it is executed. -/
def traceLine (e : Emulator) (op : Opcode) (word : Nat) : String :=
  "$" ++ Hex.padded 4 e.machine.registers.pc ++ ": " ++ Hex.padded 4 word ++ "  "
    ++ Text.padRight 18 (op.text word) ++ " " ++ e.machine.registers.text

/-- Adds the instruction to the trace and the log, if tracing is on. -/
def traced (e : Emulator) (op : Opcode) (word : Nat) : Emulator :=
  if e.tracing then
    let line := e.traceLine op word
    { e with trace := e.trace.push line }.note .debug line
  else e

@[simp]
theorem machine_traced (e : Emulator) (op : Opcode) (word : Nat) :
    (e.traced op word).machine = e.machine := by
  rw [traced]
  split <;> rfl

def latch (e : Emulator) (f : Fault) : Emulator :=
  { e with machine := { e.machine with stop := some (.faulted f) } }.note .error
    ("Execution stopped (" ++ f.reason.name ++ "): " ++ f.message)

/-- Latches the fault of an answer, if it is one. -/
def settle (reply : Reply Unit) : Reply Unit :=
  match reply with
  | (.error (.fault f), e) => (.error (.fault f), e.latch f)
  | other => other

section

variable (notify : Emulator → Listener → Reply Unit)

/-- Calls listeners in turn, up to the first one that fails. -/
def callAll (e : Emulator) : List Listener → Reply Unit
  | [] => (.ok (), e)
  | l :: rest =>
    match notify e l with
    | (.error err, e) => (.error err, e)
    | (.ok (), e) => callAll e rest

/-- Reports an event to the listeners that are registered for it at this moment. -/
def emit (e : Emulator) (event : Event) : Reply Unit :=
  e.callAll notify (e.listeners.forEvent event)

def commit (e : Emulator) (x : Execution) : Emulator :=
  { e with
    machine := x.machine
    log := x.remarks.foldl (fun log r => log.push r.toRecord) e.log }

/-- Takes over what an instruction gave: the machine and the log, then its event or its error. -/
def absorb (e : Emulator) (x : Execution) : Reply Unit :=
  match x.result with
  | .error err => (.error err, e.commit x)
  | .ok none => (.ok (), e.commit x)
  | .ok (some event) => (e.commit x).emit notify event

/-- Executes the instruction at the program counter, whether the machine is stopped or not. -/
def executeWith (e : Emulator) : Reply Unit :=
  let word := e.nextWord
  settle <| match Opcode.lookup word with
    | none => (.error (.fault (.illegalOpcode e.machine.registers.pc word)), e)
    | some op => (e.traced op word).absorb notify (e.machine.execute op word)

/-- Executes one instruction unless the machine is stopped, and tells why it is stopped then. -/
def stepWith (e : Emulator) : Reply (Option StopReason) :=
  if e.stopped then (.ok e.stopReason, e)
  else
    match e.executeWith notify with
    | (.error err, e) => (.error err, e)
    | (.ok (), e) => (.ok e.stopReason, e)

/-- Steps at most `count` times, until the machine is stopped. An error of the machine ends the run
and is told by the stop reason. -/
def runWith (e : Emulator) : Nat → Reply (Option StopReason)
  | 0 => (.ok (some .timeout), e)
  | count + 1 =>
    match e.stepWith notify with
    | (.error err, e) => if err.isOfMachine then (.ok e.stopReason, e) else (.error err, e)
    | (.ok (some reason), e) => (.ok (some reason), e)
    | (.ok none, e) => e.runWith count

/-- Executes at most `count` instructions, until the machine is stopped, and counts them onto
`executed`. -/
def batchWith (e : Emulator) (executed : Nat) : Nat → Reply Nat
  | 0 => (.ok executed, e)
  | count + 1 =>
    match e.executeWith notify with
    | (.error err, e) => (.error err, e)
    | (.ok (), e) =>
      if e.stopped then (.ok (executed + 1), e) else e.batchWith (executed + 1) count

/-- Counts both timers down by some ticks, without a notification. -/
def countDown (e : Emulator) (ticks : Int) : Emulator :=
  { e with machine := { e.machine with
      delay := (e.machine.delay.decay ticks).2
      sound := (e.machine.sound.decay ticks).2 } }

/-- Counts both timers down and reports the end of the sound. -/
def decayWith (e : Emulator) (ticks : Int) : Reply Unit :=
  if (e.machine.sound.decay ticks).1 then (e.countDown ticks).emit notify .soundOff
  else (.ok (), e.countDown ticks)

/-- Executes the instructions that are due for some elapsed seconds as `batch` does, then counts the
timers down. The answer is that of the batch. A stopped machine does nothing. -/
def advanceBy (e : Emulator) (batch : Emulator → Nat → Reply Nat) (elapsed : Binary64) :
    Reply Nat :=
  if e.stopped then (.ok 0, e)
  else
    match e.clock.cyclesDue elapsed with
    | .error err => (.error err, e)
    | .ok cycles =>
      match batch e cycles.toNat with
      | (.error err, e) => (.error err, e)
      | (.ok executed, e) =>
        match e.clock.ticksDue elapsed with
        | .error err => (.error err, e)
        | .ok ticks =>
          match e.decayWith notify ticks with
          | (.error err, e) => (.error err, e)
          | (.ok (), e) => (.ok executed, e)

def advanceWith (e : Emulator) (elapsed : Binary64) : Reply Nat :=
  e.advanceBy notify (fun e => e.batchWith notify 0) elapsed

/-- Advances by the seconds since the last timestamp. -/
def tickWith (e : Emulator) (now : Binary64) : Reply Nat :=
  let (elapsed, clock) := e.clock.elapsedSince now
  { e with clock }.advanceWith notify elapsed

def serve (e : Emulator) : Request → Reply Answer
  | .load program speed => Reply.map (fun _ => .nothing) (e.load program speed)
  | .reset => (.ok .nothing, e.reset)
  | .step => Reply.map .stop (e.stepWith notify)
  | .run maxSteps => Reply.map .stop (e.runWith notify maxSteps.toNat)
  | .advance elapsed => Reply.map .executed (e.advanceWith notify elapsed)
  | .tick now => Reply.map .executed (e.tickWith notify now)
  | .keyDown key => Reply.map (fun _ => .nothing) (e.keyDown key)
  | .keyUp key => Reply.map (fun _ => .nothing) (e.keyUp key)
  | .listen event name => (.ok .nothing, e.addListener event { name, event })
  | .unlisten event name => (.ok .nothing, e.removeListener event name)

end

/-- Follows a script; `ask` answers its requests. -/
def follow (ask : Emulator → Request → Reply Answer) (e : Emulator) : Script → Reply Unit
  | .done => (.ok (), e)
  | .fail err => (.error err, e)
  | .ask r next =>
    let (answer, e) := ask e r
    follow ask e (next answer e.machine)

/-- The emulator after a listener took note of its event. -/
def noted (e : Emulator) (l : Listener) : Emulator :=
  { e with notices := e.notices.push ⟨l.name, l.event, e.machine.registers.pc⟩ }

/-- What a listener does next when an emulator calls it. -/
def script (e : Emulator) (l : Listener) : Script :=
  l.action.toScript l.event e.notices e.machine

/-- Calls a listener; `ask` answers its requests. -/
def call (ask : Emulator → Request → Reply Answer) (e : Emulator) (l : Listener) : Reply Unit :=
  (e.noted l).follow ask (e.script l)

/-- Calls a listener in whose call others may nest to the given depth. -/
def notifyAt : Nat → Emulator → Listener → Reply Unit
  | 0, e, _ => (.error .nestingTooDeep, e)
  | depth + 1, e, l => e.call (serve (notifyAt depth)) l

/-- How deep calls may nest. Each nested call reports an event, and memory holds no more than 2048
words, so programs without a loop through a listener stay below it. -/
def nestingLimit : Nat :=
  2048

def notify : Emulator → Listener → Reply Unit :=
  notifyAt nestingLimit

def step (e : Emulator) : Reply (Option StopReason) :=
  e.stepWith notify

def run (e : Emulator) (maxSteps : Int) : Reply (Option StopReason) :=
  e.runWith notify maxSteps.toNat

def advance (e : Emulator) (elapsed : Binary64) : Reply Nat :=
  e.advanceWith notify elapsed

def tick (e : Emulator) (now : Binary64) : Reply Nat :=
  e.tickWith notify now

end Chip8.Emulator
