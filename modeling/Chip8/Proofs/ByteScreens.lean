import Chip8.Proofs.Sprites
import Mathlib.Data.Int.Bitwise
import Mathlib.Tactic.IntervalCases

/-!
A screen as an array of bytes. A cell has room for any byte and the rows of a sprite are integers of
any size, but the only bytes that are ever stored are zero and one. So the array is a screen of
single bits in another form, call by call, and also after a call that failed midway.
-/

namespace Chip8.Proofs.ByteScreens

open Chip8.Framebuffer
open Chip8.Proofs.Pixels
open Chip8.Proofs.Sprites

section

variable (width height : Int)

structure ByteScreen where
  cells : Vector UInt8 (width * height).toNat := Vector.replicate (width * height).toNat 0

end

variable {width height : Int}

namespace ByteScreen

def getPixel (s : ByteScreen width height) (x y : Int) : Except Error Bool :=
  (cellAt width height x y).map fun cell => s.cells.get cell == 1

def store (s : ByteScreen width height) (x y : Int) (value : UInt8) :
    ByteScreen width height × Except Error Unit :=
  match cellAt width height x y with
  | .error e => (s, .error e)
  | .ok cell => ({ s with cells := s.cells.setIfInBounds cell value }, .ok ())

/-- The bytes of a run of cells, each shifted to its place and put together by or. -/
def readBits (s : ByteScreen width height) (x y : Int) : Nat → Except Error Nat
  | 0 => .ok 0
  | count + 1 =>
    if x ≥ width then .ok 0
    else do
      let cell ← cellAt width height x y
      let rest ← s.readBits (x + 1) y count
      return (s.cells.get cell).toNat <<< count ||| rest

def writeBits (s : ByteScreen width height) (x y value : Int) :
    Nat → ByteScreen width height × Except Error Unit
  | 0 => (s, .ok ())
  | count + 1 =>
    if x ≥ width then (s, .ok ())
    else
      match s.store x y (toByte (value >>> count % 2)) with
      | (s, .error e) => (s, .error e)
      | (s, .ok ()) => s.writeBits (x + 1) y value count

/-- The rows are taken as they are, with all their bits. -/
def drawRows (s : ByteScreen width height) (x y : Int) (collided : Bool) :
    List Int → ByteScreen width height × Except Error Bool
  | [] => (s, .ok collided)
  | row :: rest =>
    if y ≥ height then (s, .ok collided)
    else
      match s.readBits x y 8 with
      | .error e => (s, .error e)
      | .ok old =>
        match s.writeBits x y (Int.xor row old) 8 with
        | (s, .error e) => (s, .error e)
        | (s, .ok ()) =>
          s.drawRows x (y + 1) (collided || Int.lor row old != Int.xor row old) rest

def litCount (s : ByteScreen width height) : Nat :=
  (s.cells.toList.map UInt8.toNat).sum

def lines (s : ByteScreen width height) : List (List UInt8) :=
  (List.range height.toNat).map fun y =>
    (s.cells.toArray.extract (y * width.toNat) ((y + 1) * width.toNat)).toList

def rows (s : ByteScreen width height) : List (List Bool) :=
  s.lines.map fun line => line.map fun cell => cell != 0

def render (s : ByteScreen width height) (on off : String) : String :=
  "\n".intercalate (s.lines.map fun line =>
    String.join (line.map fun cell => if cell != 0 then on else off))

end ByteScreen

def bit (on : Bool) : UInt8 :=
  if on then 1 else 0

inductive Command
  | setPixel (x y : Int) (on : Bool)
  | setByte (x y value : Int)
  | draw (x y : Int) (rows : List Int)
  | clear

/-- A change and its answer, if it is to have one. -/
def answered {σ α : Type} (f : α → Option Bool) (reply : σ × Except Error α) :
    σ × Except Error (Option Bool) :=
  (reply.1, reply.2.map f)

def Command.onBits (s : Framebuffer width height) :
    Command → Framebuffer width height × Except Error (Option Bool)
  | .setPixel x y on => answered (fun _ => none) (s.setPixel x y on)
  | .setByte x y value => answered (fun _ => none) (s.setByte x y value)
  | .draw x y rows => answered some (s.draw x y rows)
  | .clear => ({}, .ok none)

def Command.onBytes (s : ByteScreen width height) :
    Command → ByteScreen width height × Except Error (Option Bool)
  | .setPixel x y on => answered (fun _ => none) (s.store x y (bit on))
  | .setByte x y value => answered (fun _ => none) (s.writeBits x y value 8)
  | .draw x y rows => answered some (s.drawRows x y false rows)
  | .clear => ({}, .ok none)

def performAll {σ α : Type} (perform : σ → Command → σ × α) (s : σ) : List Command → σ × List α
  | [] => (s, [])
  | c :: rest =>
    let (s, answer) := perform s c
    let (s, answers) := performAll perform s rest
    (s, answer :: answers)

def bytes (s : Framebuffer width height) : ByteScreen width height :=
  { cells := s.cells.map bit }

theorem testBit_int (v : Int) (k : Nat) : decide (v >>> k % 2 = 1) = v.testBit k := by
  cases v with
  | ofNat m => exact testBit_natCast m k
  | negSucc m =>
      have hbit := testBit_natCast m k
      have hshift : (Int.negSucc m) >>> k = Int.negSucc (m >>> k) := rfl
      have hcast : ((m : Int) >>> k) = ((m >>> k : Nat) : Int) := rfl
      rw [Int.testBit, ← hbit, ← decide_not, hshift, hcast]
      apply decide_eq_decide.mpr
      omega

theorem testBit_toByte (v : Int) {k : Nat} (hk : k < 8) :
    (toByte v).toNat.testBit k = v.testBit k := by
  have hlow : ((v % 256).toNat : Int) >>> k % 2 = v >>> k % 2 := by
    rw [Int.shiftRight_eq_div_pow, Int.shiftRight_eq_div_pow]
    interval_cases k <;> omega
  rw [toNat_toByte, ← testBit_natCast, ← testBit_int, hlow]

theorem lt_of_testBit {b : UInt8} {k : Nat} (h : b.toNat.testBit k = true) : k < 8 := by
  by_contra hk
  have hsmall : b.toNat < 2 ^ k :=
    Nat.lt_of_lt_of_le b.toNat_lt (Nat.pow_le_pow_right (by decide) (Nat.le_of_not_lt hk))
  rw [Nat.testBit_lt_two_pow hsmall] at h
  cases h

theorem lor_eq_xor_iff (row : Int) (old : Nat) :
    Int.lor row old = Int.xor row old ↔ ∀ k, ¬ (row.testBit k = true ∧ old.testBit k = true) := by
  cases row with
  | ofNat m =>
      have hbits : Int.lor (.ofNat m) old = Int.xor (.ofNat m) old ↔ m ||| old = m ^^^ old :=
        ⟨Int.ofNat.inj, congrArg Int.ofNat⟩
      rw [hbits, or_eq_xor_iff]
      rfl
  | negSucc m =>
      have hbits : Int.lor (.negSucc m) old = Int.xor (.negSucc m) old ↔
          Nat.ldiff m old = m ^^^ old := ⟨Int.negSucc.inj, congrArg Int.negSucc⟩
      rw [hbits, Nat.eq_iff_testBit_eq]
      apply forall_congr'
      intro k
      rw [Nat.testBit_ldiff, Nat.testBit_xor, Int.testBit]
      cases m.testBit k <;> cases old.testBit k <;> decide

theorem lor_bne_xor (row : Int) (old : UInt8) :
    (Int.lor row old.toNat != Int.xor row old.toNat) =
      ((toByte row ||| old) != toByte row ^^^ old) := by
  rw [Bool.eq_iff_iff, bne_iff_ne, bne_iff_ne, or_ne_xor_iff, ne_eq, lor_eq_xor_iff, not_forall]
  apply exists_congr
  intro k
  rw [not_not]
  apply and_congr_left
  intro hold
  rw [testBit_toByte row (lt_of_testBit hold)]

theorem xor_low_bits (row : Int) (old : UInt8) {k : Nat} (hk : k < 8) :
    (Int.xor row old.toNat).testBit k = (toByte row ^^^ old).toNat.testBit k := by
  rw [Int.testBit_lxor, UInt8.toNat_xor, Nat.testBit_xor, testBit_toByte row hk]
  rfl

theorem shifted_bit {count : Nat} (hcount : count < 8) (on : Bool) :
    (bit on).toNat <<< count = (if on then 1 <<< UInt8.ofNat count else 0 : UInt8).toNat := by
  cases on with
  | false => exact Nat.zero_shiftLeft count
  | true => exact (Nat.one_shiftLeft count).trans (toNat_one_shiftLeft count hcount).symm

theorem writeBits_congr {value value' : Int} (s : Framebuffer width height) (x y : Int)
    {count : Nat} (h : ∀ k < count, value.testBit k = value'.testBit k) :
    s.writeBits x y value count = s.writeBits x y value' count := by
  induction count generalizing s x with
  | zero => rfl
  | succ count ih =>
      have hrest := fun s x => ih s x fun k hk => h k (Nat.lt_succ_of_lt hk)
      rw [writeBits, writeBits, testBit_int, testBit_int, h count (Nat.lt_succ_self count)]
      simp only [hrest]

section

variable (s : Framebuffer width height) (x y : Int)

theorem get_bytes (cell : Fin (width * height).toNat) :
    (bytes s).cells.get cell = bit (s.cells.get cell) := by
  change (s.cells.map bit)[cell.val] = bit s.cells[cell.val]
  rw [Vector.getElem_map]

theorem store_bytes (on : Bool) :
    (bytes s).store x y (bit on) = (s.setPixel x y on).map bytes id := by
  rw [ByteScreen.store, setPixel]
  cases cellAt width height x y with
  | error e => rfl
  | ok cell =>
      have hcells : (bytes s).cells.setIfInBounds cell (bit on) = (s.cells.set cell on).map bit := by
        apply Vector.ext
        intro k hk
        simp only [bytes, Vector.getElem_setIfInBounds, Vector.getElem_map, Vector.getElem_set]
        split <;> rfl
      dsimp only
      rw [hcells]
      rfl

theorem readBits_bytes {count : Nat} (hcount : count ≤ 8) :
    (bytes s).readBits x y count = (s.readBits x y count).map UInt8.toNat := by
  induction count generalizing x with
  | zero => rfl
  | succ count ih =>
      rw [ByteScreen.readBits, readBits, getPixel]
      split
      · rfl
      · cases cellAt width height x y with
        | error e => rfl
        | ok cell =>
            dsimp only
            rw [ih (x + 1) (by omega)]
            cases s.readBits (x + 1) y count with
            | error e => rfl
            | ok rest =>
                simp only [bind, Except.bind, pure, Except.pure, Except.map, get_bytes,
                  shifted_bit (show count < 8 by omega), UInt8.toNat_or]
                rfl

theorem writeBits_bytes (value : Int) (count : Nat) :
    (bytes s).writeBits x y value count = (s.writeBits x y value count).map bytes id := by
  induction count generalizing s x with
  | zero => rfl
  | succ count ih =>
      have hbit : toByte (value >>> count % 2) = bit (value >>> count % 2 = 1) := by
        rcases Int.emod_two_eq_zero_or_one (value >>> count) with hzero | hone
        · rw [hzero]
          rfl
        · rw [hone]
          rfl
      rw [ByteScreen.writeBits, writeBits, hbit, store_bytes]
      split
      · rfl
      · generalize s.setPixel x y (value >>> count % 2 = 1) = reply
        obtain ⟨s', err | _⟩ := reply
        · rfl
        · exact ih s' (x + 1)

theorem drawRows_bytes (collided : Bool) (rows : List Int) :
    (bytes s).drawRows x y collided rows = (s.drawRows x y collided rows).map bytes id := by
  induction rows generalizing s y collided with
  | nil => rfl
  | cons row rest ih =>
      rw [ByteScreen.drawRows, drawRows, getByte, readBits_bytes s x y (Nat.le_refl 8)]
      split
      · rfl
      · cases s.readBits x y 8 with
        | error e => rfl
        | ok old =>
            have hwritten : s.writeBits x y (Int.xor row old.toNat) 8 =
                s.setByte x y (toByte row ^^^ old).toNat :=
              writeBits_congr s x y fun k hk => xor_low_bits row old hk
            simp only [Except.map, writeBits_bytes, hwritten, lor_bne_xor]
            generalize s.setByte x y (toByte row ^^^ old).toNat = reply
            obtain ⟨s', err | _⟩ := reply
            · rfl
            · exact ih s' (y + 1) _

theorem bytes_dark : bytes ({} : Framebuffer width height) = {} := by
  simp [bytes, bit]

theorem onBytes_bytes (c : Command) : c.onBytes (bytes s) = (c.onBits s).map bytes id := by
  cases c with
  | setPixel x y on => rw [Command.onBytes, store_bytes, Command.onBits]; rfl
  | setByte x y value => rw [Command.onBytes, writeBits_bytes, Command.onBits]; rfl
  | draw x y rows => rw [Command.onBytes, drawRows_bytes, Command.onBits]; rfl
  | clear => simp [Command.onBytes, Command.onBits, bytes_dark]

theorem performAll_bytes (cs : List Command) :
    performAll Command.onBytes (bytes s) cs = (performAll Command.onBits s cs).map bytes id := by
  induction cs generalizing s with
  | nil => rfl
  | cons c rest ih =>
      rw [performAll, performAll, onBytes_bytes]
      simp only [Prod.map, ih]
      rfl

end

/-- The bytes of a screen are all zeros and ones, and whichever way they are read, they give what
the bits give. -/
structure SameScreen (b : ByteScreen width height) (s : Framebuffer width height) : Prop where
  singleBit : ∀ cell ∈ b.cells.toList, cell = 0 ∨ cell = 1
  getPixel : ∀ x y, b.getPixel x y = s.getPixel x y
  litCount : b.litCount = s.litCount
  rows : b.rows = s.rows
  snapshot : b.cells.toList = s.snapshot
  render : ∀ on off, b.render on off = s.render on off

theorem foldl_lit (cells : List Bool) (n : Nat) :
    cells.foldl (fun n on => if on then n + 1 else n) n = n + cells.count true := by
  induction cells generalizing n with
  | nil => rfl
  | cons on rest ih =>
      rw [List.foldl_cons, ih, List.count_cons]
      cases on with
      | false => simp
      | true => simp; omega

theorem litCount_eq (s : Framebuffer width height) : s.litCount = s.cells.toList.count true := by
  rw [litCount, ← Array.foldl_toList, foldl_lit, Nat.zero_add]
  rfl

theorem sum_bits (cells : List Bool) :
    ((cells.map bit).map UInt8.toNat).sum = cells.count true := by
  induction cells with
  | nil => rfl
  | cons on rest ih =>
      rw [List.map_cons, List.map_cons, List.sum_cons, ih, List.count_cons]
      cases on with
      | false => simp [bit]
      | true => simp [bit]; omega

theorem bit_beq_one (on : Bool) : (bit on == 1) = on := by
  cases on <;> rfl

theorem bit_bne_zero (on : Bool) : (bit on != 0) = on := by
  cases on <;> rfl

theorem lines_bytes (s : Framebuffer width height) :
    (bytes s).lines = s.rows.map fun row => row.map bit := by
  simp [ByteScreen.lines, Framebuffer.rows, bytes]

theorem sameScreen_bytes (s : Framebuffer width height) : SameScreen (bytes s) s where
  singleBit := by
    intro cell hcell
    simp only [bytes, Vector.toList_map, List.mem_map] at hcell
    obtain ⟨on, -, rfl⟩ := hcell
    cases on with
    | false => exact .inl rfl
    | true => exact .inr rfl
  getPixel x y := by
    rw [ByteScreen.getPixel, Framebuffer.getPixel]
    cases cellAt width height x y with
    | error e => rfl
    | ok cell =>
        simp only [Except.map, get_bytes, bit_beq_one]
        rfl
  litCount := by
    rw [ByteScreen.litCount, bytes, Vector.toList_map, sum_bits, litCount_eq]
  rows := by
    simp only [ByteScreen.rows, lines_bytes, List.map_map, Function.comp_def, bit_bne_zero,
      List.map_id']
  snapshot := by
    rw [bytes, Vector.toList_map]
    rfl
  render on off := by
    simp only [ByteScreen.render, Framebuffer.render, lines_bytes, List.map_map, Function.comp_def,
      bit_bne_zero, String.join_eq_foldl, List.foldl_map]

/-- Bytes and bits give the same answers to any calls and stay one screen. -/
theorem sameScreen_performAll (s : Framebuffer width height) (cs : List Command) :
    (performAll Command.onBytes (bytes s) cs).2 = (performAll Command.onBits s cs).2 ∧
      SameScreen (performAll Command.onBytes (bytes s) cs).1
        (performAll Command.onBits s cs).1 := by
  rw [performAll_bytes]
  exact ⟨rfl, sameScreen_bytes _⟩

end Chip8.Proofs.ByteScreens
