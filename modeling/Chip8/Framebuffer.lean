import Chip8.Arithmetic
import Chip8.Error

/-!
A one-bit screen, row by row in one array of cells. Coordinates are integers: the cell of column
`x` and row `y` is number `y · width + x`, a negative number counts from the end of the array, and
a number outside the array is an error. Runs of eight pixels stop at the right edge, sprites at the
bottom. The width and the height are integers as well: if both are negative, there are cells and no
rows of them.
-/

namespace Chip8

structure Framebuffer (width height : Int) where
  cells : Vector Bool (width * height).toNat := Vector.replicate (width * height).toNat false
  deriving DecidableEq

namespace Framebuffer

variable {width height : Int}

/-- The most cells that there is memory for. -/
def maxCells : Int :=
  0x40000000

/-- A dark screen of the given width and height, if there can be one: a number of cells below zero,
past the reach of indices, or past what there is memory for is an error. -/
def create (width height : Int) : Except Error (Framebuffer width height) :=
  let count := width * height
  if count < -indexReach ∨ indexReach ≤ count then .error .countOutOfReach
  else if count < 0 then .error .negativeSize
  else if count ≤ maxCells then .ok {}
  else .error .outOfMemory

/-- The cell of an index that may count from the end. -/
def index? (size : Nat) (k : Int) : Option (Fin size) :=
  let k := if k < 0 then k + size else k
  if h : 0 ≤ k ∧ k < size then some ⟨k.toNat, by omega⟩ else none

/-- The cell in column `x` of row `y`. -/
def cellAt (width height x y : Int) : Except Error (Fin (width * height).toNat) :=
  let k := y * width + x
  match index? (width * height).toNat k with
  | some cell => .ok cell
  | none =>
    .error (if -indexReach ≤ k ∧ k < indexReach then .pixelOutOfRange else .indexOutOfReach)

def getPixel (s : Framebuffer width height) (x y : Int) : Except Error Bool :=
  match cellAt width height x y with
  | .ok cell => .ok s.cells[cell]
  | .error e => .error e

def setPixel (s : Framebuffer width height) (x y : Int) (on : Bool) :
    Framebuffer width height × Except Error Unit :=
  match cellAt width height x y with
  | .ok cell => ({ s with cells := s.cells.set cell on }, .ok ())
  | .error e => (s, .error e)

/-- Reads `count` pixels from column `x` on as the low bits of a byte, the first one highest.
Columns past the right edge read as zero. -/
def readBits (s : Framebuffer width height) (x y : Int) : Nat → Except Error UInt8
  | 0 => .ok 0
  | count + 1 =>
    if x ≥ width then .ok 0
    else
      match s.getPixel x y with
      | .error e => .error e
      | .ok on =>
        match s.readBits (x + 1) y count with
        | .error e => .error e
        | .ok rest => .ok ((if on then 1 <<< UInt8.ofNat count else 0) ||| rest)

def getByte (s : Framebuffer width height) (x y : Int) : Except Error UInt8 :=
  s.readBits x y 8

/-- Writes the low `count` bits of a value to the pixels from column `x` on, the highest first.
Columns past the right edge are left out; an error leaves the pixels before it written. -/
def writeBits (s : Framebuffer width height) (x y value : Int) :
    Nat → Framebuffer width height × Except Error Unit
  | 0 => (s, .ok ())
  | count + 1 =>
    if x ≥ width then (s, .ok ())
    else
      match s.setPixel x y (value >>> count % 2 = 1) with
      | (s, .error e) => (s, .error e)
      | (s, .ok ()) => s.writeBits (x + 1) y value count

def setByte (s : Framebuffer width height) (x y value : Int) :
    Framebuffer width height × Except Error Unit :=
  s.writeBits x y value 8

/-- Draws sprite rows by exclusive or from row `y` down. The answer tells whether a row turned off a
pixel that was on, or whether one before it did. -/
def drawRows (s : Framebuffer width height) (x y : Int) (collided : Bool) :
    List Int → Framebuffer width height × Except Error Bool
  | [] => (s, .ok collided)
  | row :: rest =>
    if y ≥ height then (s, .ok collided)
    else
      match s.getByte x y with
      | .error e => (s, .error e)
      | .ok old =>
        let sprite := toByte row
        let new := sprite ^^^ old
        match s.setByte x y new.toNat with
        | (s, .error e) => (s, .error e)
        | (s, .ok ()) => s.drawRows x (y + 1) (collided || (sprite ||| old) != new) rest

/-- Draws sprite rows by exclusive or, eight pixels each, from column `x` of row `y`. The answer
tells whether some row turned off a pixel that was on. -/
def draw (s : Framebuffer width height) (x y : Int) (rows : List Int) :
    Framebuffer width height × Except Error Bool :=
  s.drawRows x y false rows

def litCount (s : Framebuffer width height) : Nat :=
  s.cells.toArray.foldl (fun n on => if on then n + 1 else n) 0

def rows (s : Framebuffer width height) : List (List Bool) :=
  (List.range height.toNat).map fun y =>
    (s.cells.toArray.extract (y * width.toNat) ((y + 1) * width.toNat)).toList

def snapshot (s : Framebuffer width height) : List UInt8 :=
  s.cells.toList.map fun on => if on then 1 else 0

/-- The screen as text, one line a row. -/
def render (s : Framebuffer width height) (on off : String) : String :=
  "\n".intercalate (s.rows.map fun row =>
    row.foldl (fun line p => line ++ if p then on else off) "")

end Framebuffer

end Chip8
