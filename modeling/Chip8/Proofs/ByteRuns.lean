import Chip8.Proofs.SpriteBits
import Chip8.Proofs.Superposition

namespace Chip8.Proofs.ByteRuns

open Chip8.Framebuffer
open Chip8.Proofs.ByteScreens
open Chip8.Proofs.Drawing
open Chip8.Proofs.Pixels
open Chip8.Proofs.SpriteBits
open Chip8.Proofs.Sprites
open Chip8.Proofs.Superposition

variable {width height : Int}

/-- How many of eight columns from column `x` on lie past the right edge. -/
def clipped (width x : Int) : Nat :=
  (8 - min 8 (width - x)).toNat

/-- What reading and writing a byte from column `x` of row `y` on have to do with each other. Bytes
are written as the low bits of any integer. -/
structure ByteAccess (s : Framebuffer width height) (x y v : Int) : Prop where
  written : (s.setByte x y v).2 = .ok ()
  readBack : ∃ b, (s.setByte x y v).1.getByte x y = .ok b ∧
    b.toNat = (v % 256).toNat >>> clipped width x <<< clipped width x
  untouched : ∀ c r, OnScreen width height c r → ¬ (r = y ∧ Within width x c) →
    (s.setByte x y v).1.getPixel c r = s.getPixel c r
  writtenBack : ∃ b, s.getByte x y = .ok b ∧ s.setByte x y b.toNat = (s, .ok ())

section

variable {x y : Int} (h : OnScreen width height x y) (s : Framebuffer width height)

include h

theorem setByte_eq (v : Int) : s.setByte x y v = ((s.setByte x y v).1, .ok ()) :=
  Prod.ext rfl (writeBits_ok h.left h.top h.bottom s v 8)

theorem pixel_setByte_within (v : Int) {c : Int} (hwithin : Within width x c) :
    pixel (s.setByte x y v).1 c y = v.testBit (7 - (c - x)).toNat := by
  have hleft := h.left
  obtain ⟨hxc, hcx⟩ := hwithin
  have hon : OnScreen width height c y := ⟨by omega, by omega, h.top, h.bottom⟩
  have hbit : (x + (8 : Nat) - 1 - c).toNat = (7 - (c - x)).toNat := by omega
  rw [setByte, pixel_writeBits hleft h.top h.bottom hon, if_pos (by omega), testBit_int, hbit]

theorem pixel_setByte_outside (v : Int) {c r : Int} (hon : OnScreen width height c r)
    (houtside : ¬ (r = y ∧ Within width x c)) :
    pixel (s.setByte x y v).1 c r = pixel s c r := by
  have hright := hon.right
  rw [setByte, pixel_writeBits h.left h.top h.bottom hon, if_neg]
  rintro ⟨hrow, hxc, hcx⟩
  refine houtside ⟨hrow, hxc, ?_⟩
  omega

theorem testBit_getByte_eq {b : UInt8} (hb : s.getByte x y = .ok b) (k : Nat) :
    b.toNat.testBit k = (decide (clipped width x ≤ k ∧ k < 8) && pixel s (x + 7 - k) y) := by
  have hright := h.right
  have hcolumn : x + (8 : Nat) - 1 - k = x + 7 - k := by omega
  rw [testBit_readBits h.left h.top h.bottom s (Nat.le_refl 8) hb, hcolumn, ← Bool.decide_and]
  congr 1
  apply decide_eq_decide.mpr
  simp only [clipped]
  omega

theorem getByte_setByte (v : Int) : ∃ b, (s.setByte x y v).1.getByte x y = .ok b ∧
    b.toNat = (v % 256).toNat >>> clipped width x <<< clipped width x := by
  obtain ⟨b, hb⟩ := readBits_ok h.left h.top h.bottom (s.setByte x y v).1 8
  refine ⟨b, hb, Nat.eq_of_testBit_eq fun k => ?_⟩
  rw [testBit_getByte_eq h _ hb, Nat.testBit_shiftLeft, Nat.testBit_shiftRight, ← toNat_toByte]
  by_cases hk : clipped width x ≤ k ∧ k < 8
  · obtain ⟨hseen, hlow⟩ := hk
    have hwithin : Within width x (x + 7 - k) := by
      simp only [clipped] at hseen
      simp only [Within]
      omega
    have hbit : (7 - (x + 7 - k - x)).toNat = k := by omega
    rw [pixel_setByte_within h s v hwithin, hbit, Nat.add_sub_of_le hseen, testBit_toByte v hlow,
      decide_eq_true ⟨hseen, hlow⟩, decide_eq_true hseen]
  · rw [decide_eq_false hk, Bool.false_and, eq_comm, Bool.and_eq_false_imp]
    intro hseen
    have hseen := of_decide_eq_true hseen
    rw [Nat.add_sub_of_le hseen, ← Bool.not_eq_true]
    exact fun hbit => hk ⟨hseen, lt_of_testBit hbit⟩

theorem setByte_getByte : ∃ b, s.getByte x y = .ok b ∧ s.setByte x y b.toNat = (s, .ok ()) := by
  obtain ⟨b, hb⟩ := readBits_ok h.left h.top h.bottom s 8
  refine ⟨b, hb, ?_⟩
  have hsame : (s.setByte x y b.toNat).1 = s := by
    have hwidth := Int.lt_of_le_of_lt h.left h.right
    have hheight := Int.lt_of_le_of_lt h.top h.bottom
    apply ext_pixels (Int.le_of_lt hwidth) (Int.le_of_lt hheight)
    intro c r hon
    by_cases hrun : r = y ∧ Within width x c
    · obtain ⟨rfl, hwithin⟩ := hrun
      have hread := testBit_getByte h.left h.top h.bottom hb hwithin.1
        (Int.le_trans hwithin.2 (Int.min_le_left _ _))
      rw [decide_eq_true hon.right, Bool.true_and] at hread
      rw [pixel_setByte_within h s b.toNat hwithin]
      exact hread
    · exact pixel_setByte_outside h s b.toNat hon hrun
  rw [setByte_eq h, hsame]

end

/-- Reading and writing a byte that starts on the screen, whatever the sizes and the value. -/
theorem byte_access {x y : Int} (h : OnScreen width height x y) (s : Framebuffer width height)
    (v : Int) : ByteAccess s x y v where
  written := writeBits_ok h.left h.top h.bottom s v 8
  readBack := getByte_setByte h s v
  untouched c r hon houtside := by
    rw [getPixel_eq hon, getPixel_eq hon, pixel_setByte_outside h s v hon houtside]
  writtenBack := setByte_getByte h s

theorem byte_access_over_edge :
    let s : Framebuffer 5 2 := (({} : Framebuffer 5 2).setByte 0 0 0xFF).1
    OnScreen 5 2 2 1 ∧ ByteAccess s 2 1 (-74) ∧
      (s.setByte 2 1 (-74)).1.getByte 2 1 = .ok 0xA0 ∧
      (s.setByte 2 1 (-74)).1.rows =
        [[true, true, true, true, true], [false, false, true, false, true]] := by
  intro s
  have hon : OnScreen 5 2 2 1 := ⟨by decide, by decide, by decide, by decide⟩
  exact ⟨hon, byte_access hon s (-74), by decide, by decide⟩

end Chip8.Proofs.ByteRuns
