import Chip8.Countdown
import Chip8.Event
import Chip8.Framebuffer
import Chip8.Keypad
import Chip8.Log
import Chip8.Memory
import Chip8.Opcode
import Chip8.RandomSource

namespace Chip8

inductive Stop
  | halted
  | faulted (f : Fault)
  deriving DecidableEq, Repr

def Stop.reason : Stop → StopReason
  | .halted => .halt
  | .faulted f => f.reason

def Stop.fault? : Stop → Option Fault
  | .halted => none
  | .faulted f => some f

/-- The state that instructions read and change. -/
structure Machine where
  registers : Registers := {}
  memory : Memory := .initial
  screen : Framebuffer 64 32 := {}
  keypad : Keypad := {}
  delay : Countdown := {}
  sound : Countdown := {}
  random : RandomSource
  stop : Option Stop := none

/-- What an instruction leaves for the log. -/
inductive Remark
  /-- A write that the region of its address does not allow. -/
  | dropped (value : UInt8) (address : Int)
  | halted (address : Nat)
  deriving DecidableEq, Repr

def emulatorLogger : String :=
  "chip8vm.emu"

def memoryLogger : String :=
  "chip8vm.mem.memory"

def Remark.toRecord : Remark → Record
  | .dropped value address =>
    ⟨.debug, memoryLogger, "Dropped write of $" ++ Hex.padded 2 value.toNat ++ " to "
      ++ (Region.of address).name ++ " address $" ++ Hex.padded 3 (cell address).val⟩
  | .halted address => ⟨.info, emulatorLogger, "Halted: self-jump at $" ++ Hex.padded 4 address⟩

structure Execution where
  machine : Machine
  remarks : List Remark := []
  result : Except Error (Option Event) := .ok none

namespace Memory

/-- Writes bytes for an executing program, one after the other from an address on, with a remark for
each that is dropped. -/
def writeAll (m : Memory) (address : Int) : List UInt8 → Memory × List Remark
  | [] => (m, [])
  | b :: rest =>
    let (written, m) := m.write address b.toNat
    let (m, remarks) := m.writeAll (address + 1) rest
    (m, if written then remarks else .dropped b address :: remarks)

end Memory

namespace Registers

/-- The program counter moved over some bytes, in sixteen bits. -/
def advance (r : Registers) (bytes : Int) : Registers :=
  { r with pc := (r.pc + bytes) % 65536 }

end Registers

namespace Machine

/-- The machine with its program counter on the next instruction, or on the one after it. -/
def next (m : Machine) (skip : Bool) : Machine :=
  { m with registers := m.registers.advance (if skip then 4 else 2) }

def withRegisters (m : Machine) (r : Registers) : Machine :=
  { m with registers := r.advance 2 }

/-- The end of an instruction that changes nothing but registers. -/
def setRegisters (m : Machine) (r : Registers) : Execution :=
  { machine := m.withRegisters r }

/-- The end of an instruction that stores an integer in a register. -/
def setRegister (m : Machine) (x : Fin 16) (value : Int) : Execution :=
  match m.registers.store x value with
  | .error e => { machine := m, result := .error e }
  | .ok r => m.setRegisters r

/-- Stores a flag, then the result of an operation that reads the registers with the flag in
them. -/
def setWithFlag (m : Machine) (x : Fin 16) (flag : Int) (result : Registers → Int) : Execution :=
  match m.registers.store Registers.flag flag with
  | .error e => { machine := m, result := .error e }
  | .ok r => { m with registers := r }.setRegister x (result r)

/-- A jump to a fixed address. A jump to itself halts the machine. -/
def jump (m : Machine) (target : Nat) : Execution :=
  let moved := { m with registers := { m.registers with pc := target } }
  if m.registers.pc = target then
    { machine := { moved with stop := some .halted }, remarks := [.halted target] }
  else { machine := moved }

def call (m : Machine) (target : Nat) : Execution :=
  match m.registers.push (m.registers.pc + 2) with
  | .error f => { machine := m, result := .error (.fault f) }
  | .ok r => { machine := { m with registers := { r with pc := target } } }

def ret (m : Machine) : Execution :=
  match m.registers.pop with
  | .error f => { machine := m, result := .error (.fault f) }
  | .ok (pc, r) => { machine := { m with registers := { r with pc } } }

/-- Draws a sprite of the given height at the position that two registers hold, which is taken round
the screen. The flag tells of a collision. -/
def draw (m : Machine) (x y : Fin 16) (height : Nat) : Execution :=
  let r := m.registers
  let rows := (List.range height).map fun (k : Nat) => ((m.memory.read (r.i + k)).toNat : Int)
  match m.screen.draw (r.read x % 64) (r.read y % 32) rows with
  | (screen, .error e) => { machine := { m with screen }, result := .error e }
  | (screen, .ok collided) =>
    { machine := { m with
        screen
        registers := (r.write Registers.flag (if collided then 1 else 0)).advance 2 }
      result := .ok (some .displayUpdated) }

def writeMemory (m : Machine) (data : List UInt8) : Execution :=
  let i := m.registers.i
  let registers := m.registers.advance 2
  let (memory, remarks) := m.memory.writeAll i data
  { machine := { m with memory, registers }, remarks }

/-- Skips the next instruction if the key that the low nibble of a register names is down, or if it
is up. -/
def skipByKey (m : Machine) (x : Fin 16) (down : Bool) : Execution :=
  match m.keypad.query (.int (m.registers.read x % 16)) with
  | .error e => { machine := m, result := .error e }
  | .ok pressed => { machine := m.next (pressed == down) }

/-- Executes an instruction with the parameters of its word. -/
def execute (m : Machine) (op : Opcode) (word : Int) : Execution :=
  let r := m.registers
  let x := regX word
  let y := regY word
  let vx := r.read x
  let vy := r.read y
  match op with
  | .clear => { machine := { m with screen := {} }.next false }
  | .ret => m.ret
  | .jump => m.jump (address word)
  | .call => m.call (address word)
  | .skipIfByte => { machine := m.next (r.byte x = lowByte word) }
  | .skipUnlessByte => { machine := m.next (r.byte x ≠ lowByte word) }
  | .skipIfSame => { machine := m.next (r.byte x = r.byte y) }
  | .skipUnlessSame => { machine := m.next (r.byte x ≠ r.byte y) }
  | .setByte => m.setRegister x (lowByte word).toNat
  | .addByte => m.setRegister x ((vx + (lowByte word).toNat) % 256)
  | .copy => m.setRegister x vy
  | .or => m.setRegister x (r.byte x ||| r.byte y).toNat
  | .and => m.setRegister x (r.byte x &&& r.byte y).toNat
  | .xor => m.setRegister x (r.byte x ^^^ r.byte y).toNat
  | .add =>
    let (sum, carry) := Arithmetic.add vx vy
    m.setWithFlag x carry fun _ => sum
  | .subtract =>
    m.setWithFlag x (Arithmetic.noBorrow vx vy) fun r => Arithmetic.sub (r.read x) (r.read y)
  | .shiftRight =>
    m.setWithFlag x (Arithmetic.lowBit vx) fun r => Arithmetic.shiftRight (r.read y)
  | .subtractFrom =>
    m.setWithFlag x (Arithmetic.noBorrow vy vx) fun r => Arithmetic.sub (r.read y) (r.read x)
  | .shiftLeft =>
    m.setWithFlag x (Arithmetic.lowBit vx) fun r => Arithmetic.shiftLeft (r.read y)
  | .setIndex => m.setRegisters { r with i := address word }
  | .jumpOffset =>
    { machine := { m with registers := { r with pc := (r.read Registers.offset + address word) % 65536 } } }
  | .random =>
    let (b, random) := m.random.next
    { m with random }.setRegister x (b &&& lowByte word).toNat
  | .draw => m.draw x y (lowNibble word)
  | .skipIfKey => m.skipByKey x true
  | .skipUnlessKey => m.skipByKey x false
  | .readDelay => m.setRegister x m.delay.value.toNat
  | .waitKey =>
    match m.keypad.first? with
    | some key => m.setRegister x key.val
    | none => { machine := m }
  | .setDelay => { machine := { m with delay := .set vx }.next false }
  | .setSound =>
    { machine := { m with sound := .set vx }.next false
      result := .ok (if vx > 0 then some .soundOn else none) }
  | .addIndex => m.setRegisters { r with i := (r.i + vx) % 65536 }
  | .glyph => m.setRegisters { r with i := vx * glyphSize }
  | .decimal =>
    let (hundreds, tens, units) := Arithmetic.decimal vx
    m.writeMemory [toByte hundreds, toByte tens, toByte units]
  | .store => m.writeMemory (r.v.toList.take (x.val + 1))
  | .load => m.setRegisters (r.fill x fun k => m.memory.read (r.i + k.val))

end Machine

end Chip8
