import Chip8.Arithmetic
import Chip8.Error

namespace Chip8

/-- The address at which programs are loaded and start. -/
def programStart : Nat :=
  0x200

/-- The register file. The address register and the program counter hold whatever the host stores;
execution keeps them in sixteen bits. -/
structure Registers where
  v : Vector UInt8 16 := Vector.replicate 16 0
  i : Int := 0
  pc : Int := programStart
  sp : Fin 17 := 0
  stack : Vector UInt16 16 := Vector.replicate 16 0
  deriving DecidableEq, Repr

namespace Registers

/-- The register that carries flags. -/
def flag : Fin 16 :=
  15

/-- The register that a jump with an offset adds to its target. -/
def offset : Fin 16 :=
  0

def byte (r : Registers) (x : Fin 16) : UInt8 :=
  r.v[x]

def read (r : Registers) (x : Fin 16) : Int :=
  ((r.byte x).toNat : Int)

def write (r : Registers) (x : Fin 16) (value : UInt8) : Registers :=
  { r with v := r.v.set x value }

/-- Replaces the registers up to a last one. -/
def fill (r : Registers) (last : Fin 16) (value : Fin 16 → UInt8) : Registers :=
  { r with v := Vector.ofFn fun k => if k ≤ last then value k else r.v[k] }

/-- Stores an integer in a register, if it is a byte. -/
def store (r : Registers) (x : Fin 16) (value : Int) : Except Error Registers :=
  if IsByte value then .ok (r.write x (toByte value)) else .error .byteOutOfRange

/-- Pushes the low sixteen bits of an address, if a slot is free. -/
def push (r : Registers) (address : Int) : Except Fault Registers :=
  if h : r.sp.val < 16 then
    .ok { r with
      stack := r.stack.set r.sp.val (UInt16.ofNat (address % 65536).toNat)
      sp := ⟨r.sp.val + 1, by omega⟩ }
  else .error (.stackOverflow r.pc)

/-- Pops the newest address, if there is one. -/
def pop (r : Registers) : Except Fault (Int × Registers) :=
  match h : r.sp.val with
  | 0 => .error (.stackUnderflow r.pc)
  | k + 1 =>
    have hk : k < 16 := by omega
    .ok ((r.stack[k].toNat : Int), { r with sp := ⟨k, by omega⟩ })

inductive Target
  | pc
  | i
  | v (x : Fin 16)
  deriving DecidableEq, Repr

/-- Stores an integer in a register by name: a byte in a byte register, anything in the others. -/
def assign (r : Registers) (target : Target) (value : Int) : Except Error Registers :=
  match target with
  | .pc => .ok { r with pc := value }
  | .i => .ok { r with i := value }
  | .v x => r.store x value

def text (r : Registers) : String :=
  let vs := (List.finRange 16).map fun x =>
    "V" ++ Hex.text (x.val : Int) ++ "=" ++ Hex.padded 2 (r.read x)
  "PC=" ++ Hex.padded 4 r.pc ++ " I=" ++ Hex.padded 4 r.i ++ " SP=" ++ Hex.text (r.sp.val : Int)
    ++ " " ++ " ".intercalate vs

end Registers

end Chip8
