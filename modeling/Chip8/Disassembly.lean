import Chip8.Memory
import Chip8.Opcode

namespace Chip8.Disassembly

/-- One word of an image with its address and, if the table has it, its instruction. -/
structure Line where
  address : Nat
  word : Nat
  opcode : Option Opcode
  deriving DecidableEq, Repr

namespace Line

def mnemonic (l : Line) : String :=
  match l.opcode with
  | some op => op.mnemonic
  | none => "UNKNOWN"

def operandText (l : Line) : String :=
  match l.opcode with
  | some op => op.operandText l.word
  | none => ""

def text (l : Line) : String :=
  match l.opcode with
  | some op => op.text l.word
  | none => l.mnemonic

def format (l : Line) : String :=
  Hex.padded 4 l.address ++ "\t" ++ Hex.padded 4 l.word ++ "\t" ++ l.text

end Line

/-- The big-endian words of some bytes after the words in `done`; a last odd byte is followed by a
zero. -/
def wordsOnto (done : Array Nat) : List UInt8 → Array Nat
  | [] => done
  | [high] => done.push (high.toNat * 256)
  | high :: low :: rest => wordsOnto (done.push (high.toNat * 256 + low.toNat)) rest

def words (data : List UInt8) : List Nat :=
  (wordsOnto #[] data).toList

def lineOf (address word : Nat) : Line :=
  { address, word, opcode := Opcode.lookup word }

/-- The lines of an image from a start address on, which must lie in the program region. -/
def lines (image : List UInt8) (start : Int) : Except Error (List Line) :=
  if programStart ≤ start ∧ start < memorySize then
    let first := start.toNat
    .ok ((words (image.drop (first - programStart))).mapIdx fun k word =>
      lineOf (first + 2 * k) word)
  else .error (.invalidStart start)

def header : String :=
  "Address\tOpcode\tInstruction"

/-- The listing of an image: the header and one formatted line a word. -/
def listing (image : List UInt8) (start : Int) : Except Error (List String) :=
  (lines image start).map fun ls => header :: ls.map Line.format

end Chip8.Disassembly
