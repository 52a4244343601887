import Chip8.Arithmetic
import Chip8.Registers

namespace Chip8

def memorySize : Nat :=
  4096

def maxProgramSize : Nat :=
  memorySize - programStart

def glyphSize : Nat :=
  5

/-- The glyphs of the sixteen hexadecimal digits, five rows each. -/
def font : List UInt8 :=
  [0xF0, 0x90, 0x90, 0x90, 0xF0, 0x20, 0x60, 0x20, 0x20, 0x70,
    0xF0, 0x10, 0xF0, 0x80, 0xF0, 0xF0, 0x10, 0xF0, 0x10, 0xF0,
    0x90, 0x90, 0xF0, 0x10, 0x10, 0xF0, 0x80, 0xF0, 0x10, 0xF0,
    0xF0, 0x80, 0xF0, 0x90, 0xF0, 0xF0, 0x10, 0x20, 0x40, 0x40,
    0xF0, 0x90, 0xF0, 0x90, 0xF0, 0xF0, 0x90, 0xF0, 0x10, 0xF0,
    0xF0, 0x90, 0xF0, 0x90, 0x90, 0xE0, 0x90, 0xE0, 0x90, 0xE0,
    0xF0, 0x80, 0x80, 0x80, 0xF0, 0xE0, 0x90, 0x90, 0x90, 0xE0,
    0xF0, 0x80, 0xF0, 0x80, 0xF0, 0xF0, 0x80, 0xF0, 0x80, 0x80]

inductive Region
  | font
  | reserved
  | program
  deriving DecidableEq, Repr

namespace Region

def all : List Region :=
  [.font, .reserved, .program]

def name : Region → String
  | .font => "FONT"
  | .reserved => "RESERVED"
  | .program => "PROGRAM"

def first : Region → Nat
  | .font => 0
  | .reserved => 0x50
  | .program => programStart

def last : Region → Nat
  | .font => 0x4F
  | .reserved => programStart - 1
  | .program => memorySize - 1

def writable : Region → Bool
  | .program => true
  | _ => false

def contains (r : Region) (c : Nat) : Bool :=
  r.first ≤ c && c ≤ r.last

def find? (c : Nat) : Option Region :=
  all.find? fun r => r.contains c

theorem find?_eq {c : Nat} (h : c < memorySize) :
    find? c = some (if c < 0x50 then .font else if c < programStart then .reserved
      else .program) := by
  simp only [find?, all, List.find?_cons, contains, first, last]
  grind

theorem isSome_find? {c : Nat} (h : c < memorySize) : (find? c).isSome := by
  rw [find?_eq h, Option.isSome_some]

end Region

def cell (address : Int) : Fin 4096 :=
  ⟨(address % 4096).toNat, by omega⟩

def Region.of (address : Int) : Region :=
  (Region.find? (cell address)).get (Region.isSome_find? (cell address).isLt)

structure Memory where
  cells : Vector UInt8 4096 := Vector.replicate 4096 0
  deriving DecidableEq

namespace Memory

def read (m : Memory) (address : Int) : UInt8 :=
  m.cells[cell address]

def readWord (m : Memory) (address : Int) : Nat :=
  (m.read address).toNat * 256 + (m.read (address + 1)).toNat

def readBlock (m : Memory) (address count : Int) : List UInt8 :=
  (List.range count.toNat).map fun (k : Nat) => m.read (address + k)

/-- Stores a byte at an address, whatever its region. -/
def set (m : Memory) (address : Int) (value : UInt8) : Memory :=
  { m with cells := m.cells.set (cell address) value }

/-- Stores the low byte of a value for an executing program. The write is dropped, and the answer
false, if the region is not writable. -/
def write (m : Memory) (address value : Int) : Bool × Memory :=
  if (Region.of address).writable then
    (true, m.set address (toByte value))
  else (false, m)

/-- Stores bytes one after the other from an address on, whatever the region. -/
def load (m : Memory) (data : List UInt8) (address : Int) : Memory :=
  match data with
  | [] => m
  | b :: rest => (m.set address b).load rest (address + 1)

def loadFont (m : Memory) : Memory :=
  m.load font 0

/-- Stores a program at its start, cut to the size of the program region. The number counts the
bytes stored. -/
def loadProgram (m : Memory) (program : List UInt8) : Nat × Memory :=
  let data := program.take maxProgramSize
  (data.length, m.load data programStart)

def initial : Memory :=
  ({} : Memory).loadFont

end Memory

end Chip8
