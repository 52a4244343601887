import Chip8.Proofs.Drawing
import Mathlib.Data.Nat.Bitwise

namespace Chip8.Proofs.Pixels

open Chip8.Framebuffer
open Chip8.Proofs.Drawing

variable {width height : Int}

/-- A column and a row of the screen. -/
structure OnScreen (width height x y : Int) : Prop where
  left : 0 ≤ x
  right : x < width
  top : 0 ≤ y
  bottom : y < height

/-- Whether the pixel in a column and a row is lit. -/
def pixel (s : Framebuffer width height) (x y : Int) : Bool :=
  decide (s.getPixel x y = .ok true)

theorem getPixel_eq {x y : Int} (h : OnScreen width height x y) (s : Framebuffer width height) :
    s.getPixel x y = .ok (pixel s x y) := by
  obtain ⟨on, hon⟩ := getPixel_ok h.left h.right h.top h.bottom s
  simp [pixel, hon]

theorem column_of_cell {x y : Int} (hx : 0 ≤ x) (hxw : x < width) :
    (y * width + x) % width = x := by
  rw [Int.add_comm, Int.add_mul_emod_self_right, Int.emod_eq_of_lt hx hxw]

theorem row_of_cell {x y : Int} (hx : 0 ≤ x) (hxw : x < width) : (y * width + x) / width = y := by
  rw [Int.add_comm, Int.add_mul_ediv_right _ _ (by omega), Int.ediv_eq_zero_of_lt hx hxw,
    Int.zero_add]

theorem cell_inj {x y c r : Int} (h : OnScreen width height x y) (h' : OnScreen width height c r) :
    (y * width + x).toNat = (r * width + c).toNat ↔ c = x ∧ r = y := by
  have hnonneg := cell_nonneg h.left h.right h.top
  have hnonneg' := cell_nonneg h'.left h'.right h'.top
  constructor
  · intro hcell
    have hnumber : y * width + x = r * width + c := by omega
    constructor
    · rw [← column_of_cell (y := y) h.left h.right, hnumber, column_of_cell h'.left h'.right]
    · rw [← row_of_cell (y := y) h.left h.right, hnumber, row_of_cell h'.left h'.right]
  · rintro ⟨rfl, rfl⟩
    rfl

theorem pixel_setPixel {x y c r : Int} (h : OnScreen width height x y)
    (h' : OnScreen width height c r) (s : Framebuffer width height) (on : Bool) :
    pixel (s.setPixel x y on).1 c r = if c = x ∧ r = y then on else pixel s c r := by
  obtain ⟨hcell, hset⟩ := cellAt_eq h.left h.right h.top h.bottom
  obtain ⟨hcell', hget⟩ := cellAt_eq h'.left h'.right h'.top h'.bottom
  simp only [pixel, getPixel, setPixel, hset, hget, Except.ok.injEq, Bool.decide_eq_true,
    Fin.getElem_fin, Vector.getElem_set, cell_inj h h']

theorem setPixel_eq {x y : Int} (h : OnScreen width height x y) (s : Framebuffer width height)
    (on : Bool) : s.setPixel x y on = ((s.setPixel x y on).1, .ok ()) :=
  Prod.ext rfl (setPixel_ok h.left h.right h.top h.bottom s on)

theorem toNat_one_shiftLeft : ∀ count < 8, (1 <<< UInt8.ofNat count : UInt8).toNat = 2 ^ count := by
  decide

theorem testBit_single {count : Nat} (hcount : count < 8) (on : Bool) (k : Nat) :
    (if on then 1 <<< UInt8.ofNat count else 0 : UInt8).toNat.testBit k =
      (on && decide (count = k)) := by
  cases on with
  | false => simp
  | true => rw [if_pos rfl, toNat_one_shiftLeft count hcount, Nat.testBit_two_pow, Bool.true_and]

theorem testBit_readBits {x y : Int} (hx : 0 ≤ x) (hy : 0 ≤ y) (hyh : y < height)
    (s : Framebuffer width height) {count : Nat} (hcount : count ≤ 8) {b : UInt8}
    (h : s.readBits x y count = .ok b) (k : Nat) :
    b.toNat.testBit k = (decide (k < count) && decide (x + count - 1 - k < width) &&
      pixel s (x + count - 1 - k) y) := by
  induction count generalizing x b with
  | zero =>
      cases h
      simp
  | succ count ih =>
      push_cast
      rw [readBits] at h
      split at h
      · cases h
        have hpast : k < count + 1 → ¬ x + (count + 1 : Int) - 1 - k < width := by omega
        by_cases hk : k < count + 1
        · simp [decide_eq_false (hpast hk)]
        · simp [hk]
      · have hon : OnScreen width height x y := ⟨hx, by omega, hy, hyh⟩
        obtain ⟨rest, hrest⟩ := readBits_ok (x := x + 1) (by omega) hy hyh s count
        simp only [getPixel_eq hon, hrest, Except.ok.injEq] at h
        subst h
        have hcolumn : x + 1 + (count : Int) - 1 - k = x + (count + 1) - 1 - k := by omega
        rw [UInt8.toNat_or, Nat.testBit_or, testBit_single (by omega),
          ih (by omega) (by omega) hrest, hcolumn]
        -- The first column has the highest bit, and the rest of the run those below it.
        rcases Nat.lt_trichotomy k count with hlow | rfl | hhigh
        · simp [hlow, show k < count + 1 by omega, show count ≠ k by omega]
        · have hfirst : x + (k + 1 : Int) - 1 - k = x := by omega
          simp only [hfirst]
          simp [hon.right]
        · simp [show ¬ k < count by omega, show ¬ k < count + 1 by omega,
            show count ≠ k by omega]

theorem pixel_writeBits {x y c r : Int} (hx : 0 ≤ x) (hy : 0 ≤ y) (hyh : y < height)
    (h : OnScreen width height c r) (s : Framebuffer width height) (value : Int) (count : Nat) :
    pixel (s.writeBits x y value count).1 c r =
      if r = y ∧ x ≤ c ∧ c < x + count then decide (value >>> (x + count - 1 - c).toNat % 2 = 1)
      else pixel s c r := by
  induction count generalizing s x with
  | zero => rw [writeBits, if_neg (by omega)]
  | succ count ih =>
      rw [writeBits]
      split
      · have hright := h.right
        rw [if_neg (by omega)]
      · have hon : OnScreen width height x y := ⟨hx, by omega, hy, hyh⟩
        rw [setPixel_eq hon]
        dsimp only
        rw [ih (by omega), pixel_setPixel hon h]
        have hbit : x + 1 + (count : Int) - 1 - c = x + (count + 1 : Nat) - 1 - c := by omega
        by_cases hfirst : c = x ∧ r = y
        · obtain ⟨rfl, rfl⟩ := hfirst
          have hhighest : (c + (count + 1 : Nat) - 1 - c).toNat = count := by omega
          rw [if_neg (by omega), if_pos ⟨rfl, rfl⟩, if_pos (by omega), hhighest]
        · rw [if_neg hfirst, hbit]
          exact if_congr (by omega) rfl rfl

end Chip8.Proofs.Pixels
