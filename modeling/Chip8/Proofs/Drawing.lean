import Chip8.Framebuffer

namespace Chip8.Proofs.Drawing

open Chip8.Framebuffer

variable {width height : Int}

theorem cell_nonneg {x y : Int} (hx : 0 ≤ x) (hxw : x < width) (hy : 0 ≤ y) :
    0 ≤ y * width + x := by
  have := Int.mul_nonneg hy (show 0 ≤ width by omega)
  omega

theorem cell_lt {x y : Int} (hxw : x < width) (hyh : y < height) (hx : 0 ≤ x) :
    y * width + x < width * height := by
  have hrows : (y + 1) * width ≤ height * width :=
    Int.mul_le_mul_of_nonneg_right (by omega) (by omega)
  rw [Int.add_mul, Int.one_mul, Int.mul_comm height width] at hrows
  omega

theorem index?_eq {size : Nat} {k : Int} (hk : 0 ≤ k) (hsize : k < size) :
    index? size k = some ⟨k.toNat, by omega⟩ := by
  simp [index?, show ¬ k < 0 by omega, hk, hsize]

theorem cellAt_eq {x y : Int} (hx : 0 ≤ x) (hxw : x < width) (hy : 0 ≤ y) (hyh : y < height) :
    ∃ h, cellAt width height x y = .ok ⟨(y * width + x).toNat, h⟩ := by
  have hnonneg := cell_nonneg hx hxw hy
  have hlt := cell_lt hxw hyh hx
  refine ⟨by omega, ?_⟩
  rw [cellAt, index?_eq hnonneg (by omega)]

theorem getPixel_ok {x y : Int} (hx : 0 ≤ x) (hxw : x < width) (hy : 0 ≤ y) (hyh : y < height)
    (s : Framebuffer width height) : ∃ on, s.getPixel x y = .ok on := by
  obtain ⟨hcell, hok⟩ := cellAt_eq hx hxw hy hyh
  exact ⟨s.cells[(y * width + x).toNat], by rw [getPixel, hok]; rfl⟩

theorem setPixel_ok {x y : Int} (hx : 0 ≤ x) (hxw : x < width) (hy : 0 ≤ y) (hyh : y < height)
    (s : Framebuffer width height) (on : Bool) : (s.setPixel x y on).2 = .ok () := by
  obtain ⟨_, hok⟩ := cellAt_eq hx hxw hy hyh
  rw [setPixel, hok]

theorem readBits_ok {x y : Int} (hx : 0 ≤ x) (hy : 0 ≤ y) (hyh : y < height)
    (s : Framebuffer width height) (count : Nat) : ∃ b, s.readBits x y count = .ok b := by
  induction count generalizing x with
  | zero => exact ⟨0, rfl⟩
  | succ count ih =>
      by_cases hxw : x < width
      · obtain ⟨on, hon⟩ := getPixel_ok hx hxw hy hyh s
        obtain ⟨rest, hrest⟩ := ih (x := x + 1) (by omega)
        refine ⟨(if on then 1 <<< UInt8.ofNat count else 0) ||| rest, ?_⟩
        rw [readBits, if_neg (by omega), hon]
        simp only [hrest]
      · exact ⟨0, by rw [readBits, if_pos (by omega)]⟩

theorem writeBits_ok {x y : Int} (hx : 0 ≤ x) (hy : 0 ≤ y) (hyh : y < height)
    (s : Framebuffer width height) (value : Int) (count : Nat) :
    (s.writeBits x y value count).2 = .ok () := by
  induction count generalizing s x with
  | zero => rfl
  | succ count ih =>
      rw [writeBits]
      split
      · rfl
      · have hset := setPixel_ok hx (by omega) hy hyh s (value >>> count % 2 = 1)
        split
        · rename_i herr
          rw [herr] at hset
          cases hset
        · exact ih (by omega) _

theorem drawRows_ok {x y : Int} (hx : 0 ≤ x) (hy : 0 ≤ y) (s : Framebuffer width height)
    (collided : Bool) (rows : List Int) :
    ∃ answer, (s.drawRows x y collided rows).2 = .ok answer := by
  induction rows generalizing s y collided with
  | nil => exact ⟨collided, rfl⟩
  | cons row rest ih =>
      rw [drawRows]
      split
      · exact ⟨collided, rfl⟩
      · have hyh : y < height := by omega
        obtain ⟨old, hold⟩ := readBits_ok hx hy hyh s 8
        have hwritten := writeBits_ok hx hy hyh s (toByte row ^^^ old).toNat 8
        simp only [getByte, hold]
        split
        · rename_i herr
          rw [setByte] at herr
          rw [herr] at hwritten
          cases hwritten
        · exact ih (by omega) _ _

theorem draw_ok {x y : Int} (hx : 0 ≤ x) (hy : 0 ≤ y) (s : Framebuffer width height)
    (rows : List Int) : ∃ screen collided, s.draw x y rows = (screen, .ok collided) := by
  obtain ⟨collided, hok⟩ := drawRows_ok hx hy s false rows
  exact ⟨(s.draw x y rows).1, collided, Prod.ext rfl hok⟩

end Chip8.Proofs.Drawing
