import Chip8.Proofs.Pixels

namespace Chip8.Proofs.Sprites

open Chip8.Framebuffer
open Chip8.Proofs.Drawing
open Chip8.Proofs.Pixels

variable {width height : Int}

/-- Whether a sprite row that starts in column `x` has a pixel in column `c`. -/
def spans (row x c : Int) : Bool :=
  decide (x ≤ c ∧ c ≤ x + 7) && (toByte row).toNat.testBit (7 - (c - x)).toNat

/-- Whether a sprite that starts in column `x` of row `y` has a pixel in column `c` of row `r`, be
it on the screen or not. -/
def covers (rows : List Int) (x y c r : Int) : Bool :=
  decide (y ≤ r) && rows[(r - y).toNat]?.any fun row => spans row x c

theorem covers_nil (x y c r : Int) : covers [] x y c r = false := by
  simp [covers]

theorem covers_cons (row : Int) (rest : List Int) (x y c r : Int) :
    covers (row :: rest) x y c r = if r = y then spans row x c else covers rest x (y + 1) c r := by
  split
  · rename_i hr
    subst hr
    simp [covers]
  · rename_i hr
    by_cases hbelow : y + 1 ≤ r
    · have hindex : (r - y).toNat = (r - (y + 1)).toNat + 1 := by omega
      simp [covers, hindex, hbelow, show y ≤ r by omega]
    · simp [covers, hbelow, show ¬ y ≤ r by omega]

theorem top_le_of_covers {rows : List Int} {x y c r : Int} (h : covers rows x y c r = true) :
    y ≤ r := by
  simp only [covers, Bool.and_eq_true, decide_eq_true_eq] at h
  exact h.1

theorem testBit_natCast (n k : Nat) : decide ((n : Int) >>> k % 2 = 1) = n.testBit k := by
  rw [Nat.testBit_eq_decide_div_mod_eq, ← Nat.shiftRight_eq_div_pow]
  apply decide_eq_decide.mpr
  change ((n >>> k : Nat) : Int) % 2 = 1 ↔ _
  omega

theorem or_eq_xor_iff (a b : Nat) :
    a ||| b = a ^^^ b ↔ ∀ k, ¬ (a.testBit k = true ∧ b.testBit k = true) := by
  rw [Nat.eq_iff_testBit_eq]
  apply forall_congr'
  intro k
  rw [Nat.testBit_or, Nat.testBit_xor]
  cases a.testBit k <;> cases b.testBit k <;> decide

theorem or_ne_xor_iff (a b : UInt8) :
    (a ||| b) ≠ a ^^^ b ↔ ∃ k, a.toNat.testBit k = true ∧ b.toNat.testBit k = true := by
  rw [ne_eq, ← UInt8.toNat_inj, UInt8.toNat_or, UInt8.toNat_xor, or_eq_xor_iff]
  simp only [not_forall, not_not]

section

variable {x y : Int} (hx : 0 ≤ x) (hy : 0 ≤ y) (hyh : y < height) {s : Framebuffer width height}
  {old : UInt8} (hold : s.getByte x y = .ok old)

include hx hy hyh hold

theorem testBit_getByte {c : Int} (hleft : x ≤ c) (hright : c ≤ x + 7) :
    old.toNat.testBit (7 - (c - x)).toNat = (decide (c < width) && pixel s c y) := by
  have hcolumn : x + (8 : Nat) - 1 - ((7 - (c - x)).toNat : Int) = c := by omega
  have hbit : (7 - (c - x)).toNat < 8 := by omega
  rw [testBit_readBits hx hy hyh s (Nat.le_refl 8) hold]
  simp only [hcolumn, hbit, decide_true, Bool.true_and]

theorem pixel_turned (row : Int) {c r : Int} (h : OnScreen width height c r) :
    pixel (s.setByte x y (toByte row ^^^ old).toNat).1 c r =
      (pixel s c r ^^ (decide (r = y) && spans row x c)) := by
  rw [setByte, pixel_writeBits hx hy hyh h]
  split
  · rename_i hrun
    obtain ⟨rfl, hleft, hlast⟩ := hrun
    have hright : c ≤ x + 7 := by omega
    have hbit : (x + (8 : Nat) - 1 - c).toNat = (7 - (c - x)).toNat := by omega
    rw [testBit_natCast, hbit, UInt8.toNat_xor, Nat.testBit_xor,
      testBit_getByte hx hy hyh hold hleft hright, Bool.xor_comm]
    simp [spans, hleft, hright, h.right]
  · rename_i hrun
    have hnone : (decide (r = y) && spans row x c) = false := by
      rw [← Bool.not_eq_true]
      simp only [spans, Bool.and_eq_true, decide_eq_true_eq]
      omega
    rw [hnone, Bool.xor_false]

theorem struck_iff (row : Int) :
    ((toByte row ||| old) != toByte row ^^^ old) = true ↔
      ∃ c, OnScreen width height c y ∧ spans row x c = true ∧ pixel s c y = true := by
  rw [bne_iff_ne, or_ne_xor_iff]
  constructor
  · rintro ⟨k, hrow, hlit⟩
    have hk : k < 8 := by
      rw [testBit_readBits hx hy hyh s (Nat.le_refl 8) hold] at hlit
      simp only [Bool.and_eq_true, decide_eq_true_eq] at hlit
      exact hlit.1.1
    have hbit : (7 - (x + 7 - k - x)).toNat = k := by omega
    have hpixel := testBit_getByte hx hy hyh hold (c := x + 7 - k) (by omega) (by omega)
    rw [hbit, hlit, eq_comm, Bool.and_eq_true, decide_eq_true_eq] at hpixel
    refine ⟨x + 7 - k, ⟨by omega, hpixel.1, hy, hyh⟩, ?_, hpixel.2⟩
    rw [spans, hbit, hrow]
    simp only [Bool.and_true, decide_eq_true_eq]
    omega
  · rintro ⟨c, hon, hspans, hlit⟩
    simp only [spans, Bool.and_eq_true, decide_eq_true_eq] at hspans
    obtain ⟨⟨hleft, hright⟩, hrow⟩ := hspans
    refine ⟨_, hrow, ?_⟩
    rw [testBit_getByte hx hy hyh hold hleft hright, hlit]
    simpa using hon.right

end

theorem drawRows_cons {x y : Int} (hx : 0 ≤ x) (hy : 0 ≤ y) (hyh : y < height)
    (s : Framebuffer width height) (collided : Bool) (row : Int) (rest : List Int) :
    ∃ s' struck, s.drawRows x y collided (row :: rest) =
        s'.drawRows x (y + 1) (collided || struck) rest ∧
      (∀ c r, OnScreen width height c r →
        pixel s' c r = (pixel s c r ^^ (decide (r = y) && spans row x c))) ∧
      (struck = true ↔
        ∃ c, OnScreen width height c y ∧ spans row x c = true ∧ pixel s c y = true) := by
  obtain ⟨old, hold⟩ := readBits_ok hx hy hyh s 8
  have hwritten := writeBits_ok hx hy hyh s (toByte row ^^^ old).toNat 8
  have hset : s.setByte x y (toByte row ^^^ old).toNat =
      ((s.setByte x y (toByte row ^^^ old).toNat).1, .ok ()) := Prod.ext rfl hwritten
  refine ⟨_, _, ?_, fun c r h => pixel_turned hx hy hyh hold row h, struck_iff hx hy hyh hold row⟩
  rw [drawRows, if_neg (by omega), getByte, hold]
  dsimp only
  rw [hset]

/-- Some covered pixel on the screen is lit. -/
def Collides (s : Framebuffer width height) (rows : List Int) (x y : Int) : Prop :=
  ∃ c r, OnScreen width height c r ∧ covers rows x y c r = true ∧ pixel s c r = true

theorem collides_cons {s s' : Framebuffer width height} {row : Int} {x y : Int}
    (hpixels : ∀ c r, OnScreen width height c r →
      pixel s' c r = (pixel s c r ^^ (decide (r = y) && spans row x c))) (rest : List Int) :
    Collides s (row :: rest) x y ↔
      (∃ c, OnScreen width height c y ∧ spans row x c = true ∧ pixel s c y = true) ∨
        Collides s' rest x (y + 1) := by
  -- A lit pixel is covered by the first row of a sprite, or it is covered by the rows below it,
  -- which find it as it was.
  have hbelow : ∀ {c r}, OnScreen width height c r → r ≠ y → pixel s' c r = pixel s c r := by
    intro c r h hr
    simp [hpixels c r h, hr]
  constructor
  · rintro ⟨c, r, hon, hcovers, hlit⟩
    rw [covers_cons] at hcovers
    split at hcovers
    · rename_i hr
      subst hr
      exact .inl ⟨c, hon, hcovers, hlit⟩
    · rename_i hr
      exact .inr ⟨c, r, hon, hcovers, by rw [hbelow hon hr, hlit]⟩
  · rintro (⟨c, hon, hspans, hlit⟩ | ⟨c, r, hon, hcovers, hlit⟩)
    · exact ⟨c, y, hon, by rwa [covers_cons, if_pos rfl], hlit⟩
    · have hr : r ≠ y := by
        have := top_le_of_covers hcovers
        omega
      rw [hbelow hon hr] at hlit
      exact ⟨c, r, hon, by rwa [covers_cons, if_neg hr], hlit⟩

/-- What drawing gives: the pixels of the screen, and whether one of them was turned off now or
before. -/
structure Blit (s : Framebuffer width height) (x y : Int) (collided : Bool) (rows : List Int)
    (reply : Framebuffer width height × Except Error Bool) : Prop where
  pixels : ∀ c r, OnScreen width height c r →
    pixel reply.1 c r = (pixel s c r ^^ covers rows x y c r)
  answer : ∃ struck, reply.2 = .ok struck ∧ (struck = true ↔ collided = true ∨ Collides s rows x y)

theorem blit_of_outside {s : Framebuffer width height} {x y : Int} {rows : List Int}
    (h : ∀ c r, OnScreen width height c r → covers rows x y c r = false) (collided : Bool) :
    Blit s x y collided rows (s, .ok collided) := by
  refine ⟨?_, collided, rfl, ?_⟩
  · intro c r hon
    rw [h c r hon, Bool.xor_false]
  · have hnone : ¬ Collides s rows x y := by
      rintro ⟨c, r, hon, hcovers, -⟩
      rw [h c r hon] at hcovers
      cases hcovers
    simp [hnone]

theorem blit_drawRows {x y : Int} (hx : 0 ≤ x) (hy : 0 ≤ y) (s : Framebuffer width height)
    (collided : Bool) (rows : List Int) :
    Blit s x y collided rows (s.drawRows x y collided rows) := by
  -- By induction on the rows, down to the bottom of the screen.
  induction rows generalizing s y collided with
  | nil => exact blit_of_outside (fun c r _ => covers_nil x y c r) collided
  | cons row rest ih =>
      by_cases hyh : y < height
      · obtain ⟨s', struck, hdraw, hpixels, hstruck⟩ := drawRows_cons hx hy hyh s collided row rest
        obtain ⟨hrest, answer, hanswer, hiff⟩ := ih (y := y + 1) (by omega) s' (collided || struck)
        rw [hdraw]
        refine ⟨?_, answer, hanswer, ?_⟩
        · intro c r h
          rw [hrest c r h, hpixels c r h, covers_cons]
          split
          · rename_i hr
            have hnone : covers rest x (y + 1) c r = false := by
              rw [← Bool.not_eq_true]
              intro hcovers
              have := top_le_of_covers hcovers
              omega
            rw [hnone, decide_eq_true hr, Bool.true_and, Bool.xor_false]
          · rename_i hr
            simp [hr]
        · rw [hiff, Bool.or_eq_true, or_assoc, hstruck, ← collides_cons hpixels]
      · rw [drawRows, if_pos (by omega)]
        apply blit_of_outside
        intro c r h
        rw [← Bool.not_eq_true]
        intro hcovers
        have htop := top_le_of_covers hcovers
        have hbottom := h.bottom
        omega

/-- A sprite at a position on the screen is drawn without an error, clipped at the edges. -/
theorem blit_draw {x y : Int} (hx : 0 ≤ x) (hy : 0 ≤ y) (s : Framebuffer width height)
    (rows : List Int) : Blit s x y false rows (s.draw x y rows) :=
  blit_drawRows hx hy s false rows

end Chip8.Proofs.Sprites
