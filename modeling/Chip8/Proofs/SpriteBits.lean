import Chip8.Proofs.ByteScreens

namespace Chip8.Proofs.SpriteBits

open Chip8.Framebuffer
open Chip8.Proofs.ByteScreens
open Chip8.Proofs.Drawing
open Chip8.Proofs.Pixels
open Chip8.Proofs.Sprites

variable {width height : Int}

/-- The pixels of row `r` from column `x` on are the bits of a byte, the first one highest; what
lies past the right edge is zero. -/
structure Under (s : Framebuffer width height) (x r : Int) (old : UInt8) : Prop where
  read : s.getByte x r = .ok old
  bits : ∀ k < 8, old.toNat.testBit (7 - k) = (decide (x + k < width) && pixel s (x + k) r)

/-- Row `r` of the screen meets one of `count` sprite rows from row `y` down. -/
def Meets (height y r : Int) (count : Nat) : Prop :=
  y ≤ r ∧ r ≤ min (y + count - 1) (height - 1)

/-- Column `c` of the screen is one of the eight from column `x` on. -/
def Within (width x c : Int) : Prop :=
  x ≤ c ∧ c ≤ min (x + 7) (width - 1)

/-- What drawing gives, bit by bit of the rows. -/
structure ExclusiveOr (s : Framebuffer width height) (x y : Int) (rows : List Int)
    (reply : Framebuffer width height × Except Error Bool) : Prop where
  turned : ∀ c r, Within width x c → Meets height y r rows.length →
    ∃ row lit, rows[(r - y).toNat]? = some row ∧ s.getPixel c r = .ok lit ∧
      reply.1.getPixel c r = .ok (lit ^^ row.testBit (7 - (c - x)).toNat)
  untouched : ∀ c r, OnScreen width height c r →
    ¬ (Within width x c ∧ Meets height y r rows.length) →
    reply.1.getPixel c r = s.getPixel c r
  answer : ∃ collided, reply.2 = .ok collided ∧ (collided = true ↔
    ∃ r row old, Meets height y r rows.length ∧ rows[(r - y).toNat]? = some row ∧
      Under s x r old ∧ Int.land row old.toNat ≠ 0)

theorem land_eq_zero_iff (row : Int) (old : Nat) :
    Int.land row old = 0 ↔ ∀ k, ¬ (row.testBit k = true ∧ old.testBit k = true) := by
  obtain ⟨n, hn⟩ : ∃ n : Nat, Int.land row old = n := by
    cases row with
    | ofNat m => exact ⟨m &&& old, rfl⟩
    | negSucc m => exact ⟨Nat.ldiff old m, rfl⟩
  have hbits : ∀ k, n.testBit k = (row.testBit k && old.testBit k) := by
    intro k
    have hland := Int.testBit_land row old k
    rwa [hn] at hland
  rw [hn, Int.natCast_eq_zero, Nat.eq_iff_testBit_eq]
  simp [hbits]

theorem exists_under {x r : Int} (hx : 0 ≤ x) (hr : 0 ≤ r) (hrh : r < height)
    (s : Framebuffer width height) : ∃ old, Under s x r old := by
  obtain ⟨old, hold⟩ := readBits_ok hx hr hrh s 8
  refine ⟨old, hold, ?_⟩
  intro k hk
  have hbit := testBit_getByte hx hr hrh hold (c := x + k) (by omega) (by omega)
  rwa [show (7 - (x + k - x)).toNat = 7 - k by omega] at hbit

theorem land_ne_zero_iff {x r : Int} (hx : 0 ≤ x) (hr : 0 ≤ r) (hrh : r < height)
    {s : Framebuffer width height} {old : UInt8} (hold : s.getByte x r = .ok old) (row : Int) :
    Int.land row old.toNat ≠ 0 ↔
      ∃ c, OnScreen width height c r ∧ spans row x c = true ∧ pixel s c r = true := by
  rw [← struck_iff hx hr hrh hold row, ← lor_bne_xor, bne_iff_ne, ne_eq, ne_eq, land_eq_zero_iff,
    lor_eq_xor_iff]

theorem covers_of_row {rows : List Int} {x y c r row : Int} (hy : y ≤ r)
    (hrow : rows[(r - y).toNat]? = some row) : covers rows x y c r = spans row x c := by
  rw [covers, hrow, decide_eq_true hy, Option.any_some, Bool.true_and]

theorem spans_eq_testBit {x c : Int} (hleft : x ≤ c) (hright : c ≤ x + 7) (row : Int) :
    spans row x c = row.testBit (7 - (c - x)).toNat := by
  rw [spans, decide_eq_true ⟨hleft, hright⟩, Bool.true_and, testBit_toByte row (by omega)]

theorem row_of_covers {rows : List Int} {x y c r : Int} (h : covers rows x y c r = true) :
    y ≤ r ∧ ∃ row, rows[(r - y).toNat]? = some row ∧ spans row x c = true := by
  simpa only [covers, Bool.and_eq_true, decide_eq_true_eq, Option.any_eq_true] using h

theorem meets_of_row {rows : List Int} {y r row : Int} (hy : y ≤ r) (hrh : r < height)
    (hrow : rows[(r - y).toNat]? = some row) : Meets height y r rows.length := by
  obtain ⟨hindex, -⟩ := List.getElem?_eq_some_iff.mp hrow
  simp only [Meets]
  omega

theorem within_of_spans {x c row : Int} (hcw : c < width) (h : spans row x c = true) :
    Within width x c := by
  simp only [spans, Bool.and_eq_true, decide_eq_true_eq] at h
  simp only [Within]
  omega

theorem collides_iff {x y : Int} (hx : 0 ≤ x) (hy : 0 ≤ y) (s : Framebuffer width height)
    (rows : List Int) :
    Collides s rows x y ↔
      ∃ r row old, Meets height y r rows.length ∧ rows[(r - y).toNat]? = some row ∧
        Under s x r old ∧ Int.land row old.toNat ≠ 0 := by
  constructor
  · rintro ⟨c, r, hon, hcovers, hlit⟩
    obtain ⟨hyr, row, hrow, hspans⟩ := row_of_covers hcovers
    obtain ⟨old, hunder⟩ := exists_under hx hon.top hon.bottom s
    refine ⟨r, row, old, meets_of_row hyr hon.bottom hrow, hrow, hunder, ?_⟩
    apply (land_ne_zero_iff hx hon.top hon.bottom hunder.read row).mpr
    exact ⟨c, hon, hspans, hlit⟩
  · rintro ⟨r, row, old, ⟨hyr, hbottom⟩, hrow, hunder, hcommon⟩
    obtain ⟨c, hon, hspans, hlit⟩ :=
      (land_ne_zero_iff hx (by omega) (by omega) hunder.read row).mp hcommon
    exact ⟨c, r, hon, by rwa [covers_of_row hyr hrow], hlit⟩

theorem exclusiveOr_of_blit {s : Framebuffer width height} {x y : Int}
    (h : OnScreen width height x y) {rows : List Int}
    {reply : Framebuffer width height × Except Error Bool} (hblit : Blit s x y false rows reply) :
    ExclusiveOr s x y rows reply := by
  obtain ⟨hleft, -, htop, -⟩ := h
  constructor
  case turned =>
    rintro c r ⟨hxc, hcx⟩ ⟨hyr, hry⟩
    have hon : OnScreen width height c r := ⟨by omega, by omega, by omega, by omega⟩
    have hindex : (r - y).toNat < rows.length := by omega
    have hrow := List.getElem?_eq_getElem hindex
    refine ⟨_, pixel s c r, hrow, getPixel_eq hon s, ?_⟩
    rw [getPixel_eq hon, hblit.pixels c r hon, covers_of_row hyr hrow,
      spans_eq_testBit hxc (by omega)]
  case untouched =>
    intro c r hon hpast
    have hnone : covers rows x y c r = false := by
      rw [← Bool.not_eq_true]
      intro hcovers
      obtain ⟨hyr, row, hrow, hspans⟩ := row_of_covers hcovers
      exact hpast ⟨within_of_spans hon.right hspans, meets_of_row hyr hon.bottom hrow⟩
    rw [getPixel_eq hon, getPixel_eq hon, hblit.pixels c r hon, hnone, Bool.xor_false]
  case answer =>
    obtain ⟨collided, hreply, hstruck⟩ := hblit.answer
    refine ⟨collided, hreply, ?_⟩
    rw [hstruck, ← collides_iff hleft htop]
    simp

/-- From a start on the screen, drawing is the exclusive or of the picture and the bits of the rows.
The bytes of the screen, over which the rows are taken as they are, do the same. -/
theorem draw_exclusiveOr {x y : Int} (h : OnScreen width height x y) (s : Framebuffer width height)
    (rows : List Int) :
    ExclusiveOr s x y rows (s.draw x y rows) ∧
      (bytes s).drawRows x y false rows = (s.draw x y rows).map bytes id :=
  ⟨exclusiveOr_of_blit h (blit_draw h.left h.top s rows), drawRows_bytes s x y false rows⟩

theorem draw_exclusiveOr_in_corner :
    let s := (({} : Framebuffer 5 2).setPixel 4 1 true).1
    let drawn := s.draw 3 1 [-1, 0x1FF]
    OnScreen 5 2 3 1 ∧ drawn.2 = .ok true ∧ drawn.1.litCount = 1 ∧
      ExclusiveOr s 3 1 [-1, 0x1FF] drawn ∧
      (bytes s).drawRows 3 1 false [-1, 0x1FF] = drawn.map bytes id := by
  intro s drawn
  have hon : OnScreen 5 2 3 1 := ⟨by decide, by decide, by decide, by decide⟩
  exact ⟨hon, by decide, by decide, draw_exclusiveOr hon s [-1, 0x1FF]⟩

end Chip8.Proofs.SpriteBits
