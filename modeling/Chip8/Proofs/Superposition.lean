import Chip8.Proofs.ScreenViews

namespace Chip8.Proofs.Superposition

open Chip8.Proofs.Pixels
open Chip8.Proofs.ScreenViews
open Chip8.Proofs.Sprites

variable {width height : Int}

/-- The rows of a sprite and where on the screen they start. -/
structure Sprite (width height : Int) where
  x : Int
  y : Int
  rows : List Int
  placed : OnScreen width height x y

namespace Sprite

def draw (d : Sprite width height) (s : Framebuffer width height) :
    Framebuffer width height × Except Error Bool :=
  s.draw d.x d.y d.rows

def covers (d : Sprite width height) (c r : Int) : Bool :=
  Sprites.covers d.rows d.x d.y c r

/-- The sprite covers a pixel of the screen that is lit, or one that is dark. -/
def Finds (d : Sprite width height) (s : Framebuffer width height) (lit : Bool) : Prop :=
  ∃ c r, OnScreen width height c r ∧ d.covers c r = true ∧ pixel s c r = lit

end Sprite

/-- Draws sprites one after the other, and gives the screen and what each draw answered. -/
def drawAll (s : Framebuffer width height) :
    List (Sprite width height) → Framebuffer width height × List (Except Error Bool)
  | [] => (s, [])
  | d :: rest =>
    let (s, answer) := d.draw s
    let (s, answers) := drawAll s rest
    (s, answer :: answers)

theorem drawAll_cons (s : Framebuffer width height) (d : Sprite width height)
    (rest : List (Sprite width height)) :
    drawAll s (d :: rest) =
      ((drawAll (d.draw s).1 rest).1, (d.draw s).2 :: (drawAll (d.draw s).1 rest).2) :=
  rfl

theorem drawAll_append (s : Framebuffer width height) (ds ds' : List (Sprite width height)) :
    drawAll s (ds ++ ds') =
      ((drawAll (drawAll s ds).1 ds').1, (drawAll s ds).2 ++ (drawAll (drawAll s ds).1 ds').2) := by
  induction ds generalizing s with
  | nil => rfl
  | cons d rest ih => rw [List.cons_append, drawAll_cons, drawAll_cons, ih, List.cons_append]

theorem length_answers (s : Framebuffer width height) (ds : List (Sprite width height)) :
    (drawAll s ds).2.length = ds.length := by
  induction ds generalizing s with
  | nil => rfl
  | cons d rest ih => rw [drawAll_cons, List.length_cons, List.length_cons, ih]

theorem pixel_draw (d : Sprite width height) (s : Framebuffer width height) {c r : Int}
    (h : OnScreen width height c r) :
    pixel (d.draw s).1 c r = (pixel s c r ^^ d.covers c r) :=
  (blit_draw d.placed.left d.placed.top s d.rows).pixels c r h

theorem answer_draw (d : Sprite width height) (s : Framebuffer width height) :
    ∃ collided, (d.draw s).2 = .ok collided ∧ (collided = true ↔ d.Finds s true) := by
  obtain ⟨collided, hanswer, hstruck⟩ := (blit_draw d.placed.left d.placed.top s d.rows).answer
  refine ⟨collided, hanswer, ?_⟩
  rw [hstruck]
  simp only [Bool.false_eq_true, false_or]
  rfl

theorem answers_ok (s : Framebuffer width height) (ds : List (Sprite width height)) :
    ∀ answer ∈ (drawAll s ds).2, ∃ collided, answer = .ok collided := by
  induction ds generalizing s with
  | nil => exact fun answer h => absurd h List.not_mem_nil
  | cons d rest ih =>
      intro answer h
      rw [drawAll_cons] at h
      rcases List.mem_cons.mp h with rfl | hrest
      · obtain ⟨collided, hanswer, -⟩ := answer_draw d s
        exact ⟨collided, hanswer⟩
      · exact ih (d.draw s).1 answer hrest

theorem pixel_drawAll (s : Framebuffer width height) (ds : List (Sprite width height)) {c r : Int}
    (h : OnScreen width height c r) :
    pixel (drawAll s ds).1 c r =
      (pixel s c r ^^ decide (ds.countP (fun d => d.covers c r) % 2 = 1)) := by
  induction ds generalizing s with
  | nil => simp [drawAll]
  | cons d rest ih =>
      rw [drawAll_cons, List.countP_cons, ih, pixel_draw d s h, Bool.xor_assoc]
      congr 1
      -- One more sprite changes the parity if it covers the pixel.
      generalize rest.countP (fun d => d.covers c r) = count
      cases d.covers c r with
      | false => simp
      | true =>
          rw [if_pos rfl, Bool.true_xor, ← decide_not]
          apply decide_eq_decide.mpr
          omega

theorem ext_pixels (hwidth : 0 ≤ width) (hheight : 0 ≤ height) {s s' : Framebuffer width height}
    (h : ∀ c r, OnScreen width height c r → pixel s c r = pixel s' c r) : s = s' := by
  have hcells : s.cells.toList = s'.cells.toList := by
    rw [cells_eq hwidth hheight, cells_eq hwidth hheight]
    apply List.map_congr_left
    rintro ⟨c, r⟩ hplace
    exact h c r (mem_places.mp hplace)
  obtain ⟨cells⟩ := s
  obtain ⟨cells'⟩ := s'
  exact congrArg Framebuffer.mk (Vector.toList_inj.mp hcells)

theorem drawAll_eq_of_pixels {s s' : Framebuffer width height} {ds : List (Sprite width height)}
    (hnil : ds = [] → s = s')
    (h : ∀ c r, OnScreen width height c r → pixel (drawAll s ds).1 c r = pixel s' c r) :
    (drawAll s ds).1 = s' := by
  cases ds with
  | nil => exact hnil rfl
  | cons d rest =>
      -- A screen on which a sprite starts has no negative size, so its pixels are all its cells.
      obtain ⟨hleft, hright, htop, hbottom⟩ := d.placed
      exact ext_pixels (by omega) (by omega) h

theorem drawAll_perm (s : Framebuffer width height) {ds ds' : List (Sprite width height)}
    (h : ds.Perm ds') : (drawAll s ds').1 = (drawAll s ds).1 := by
  apply drawAll_eq_of_pixels
  · rintro rfl
    rw [List.perm_nil.mp h]
    rfl
  · intro c r hon
    rw [pixel_drawAll s ds' hon, pixel_drawAll s ds hon, h.countP_eq]

theorem drawAll_append_perm (s : Framebuffer width height) {ds ds' : List (Sprite width height)}
    (h : ds.Perm ds') : (drawAll s (ds ++ ds')).1 = s := by
  apply drawAll_eq_of_pixels fun _ => rfl
  intro c r hon
  have heven : ¬ (ds ++ ds').countP (fun d => d.covers c r) % 2 = 1 := by
    rw [List.countP_append, h.countP_eq]
    omega
  rw [pixel_drawAll s _ hon, decide_eq_false heven, Bool.xor_false]

/-- A sprite finds dark what was lit before it was drawn, and the other way round. -/
theorem finds_draw (d : Sprite width height) (s : Framebuffer width height) (lit : Bool) :
    d.Finds (d.draw s).1 lit ↔ d.Finds s (!lit) := by
  apply exists_congr
  intro c
  apply exists_congr
  intro r
  apply and_congr_right
  intro hon
  apply and_congr_right
  intro hcovers
  rw [pixel_draw d s hon, hcovers, Bool.xor_true, Bool.not_eq_eq_eq_not]

theorem finds_or_finds (d : Sprite width height) (s : Framebuffer width height) :
    d.Finds s true ∨ d.Finds s false ↔
      ∃ c r, OnScreen width height c r ∧ d.covers c r = true := by
  constructor
  · rintro (⟨c, r, hon, hcovers, -⟩ | ⟨c, r, hon, hcovers, -⟩)
    · exact ⟨c, r, hon, hcovers⟩
    · exact ⟨c, r, hon, hcovers⟩
  · rintro ⟨c, r, hon, hcovers⟩
    by_cases hlit : pixel s c r = true
    · exact .inl ⟨c, r, hon, hcovers, hlit⟩
    · exact .inr ⟨c, r, hon, hcovers, Bool.not_eq_true _ ▸ hlit⟩

/-- What is true of sprites that are drawn one after the other. -/
structure Superposed (s : Framebuffer width height) (ds : List (Sprite width height)) : Prop where
  answers : (drawAll s ds).2.length = ds.length ∧
    ∀ answer ∈ (drawAll s ds).2, ∃ collided, answer = .ok collided
  parity : ∀ c r, OnScreen width height c r →
    pixel (drawAll s ds).1 c r =
      (pixel s c r ^^ decide (ds.countP (fun d => d.covers c r) % 2 = 1))
  reordered : ∀ ds', ds.Perm ds' → (drawAll s ds').1 = (drawAll s ds).1
  undone : ∀ ds', ds.Perm ds' → (drawAll s (ds ++ ds')).1 = s
  doubled : ∀ before d rest, ds = before ++ d :: d :: rest →
    ∃ first second, (drawAll s ds).2[before.length]? = some (.ok first) ∧
      (drawAll s ds).2[before.length + 1]? = some (.ok second) ∧
      (first = true ↔ d.Finds (drawAll s before).1 true) ∧
      (second = true ↔ d.Finds (drawAll s before).1 false) ∧
      (first = true ∨ second = true ↔ ∃ c r, OnScreen width height c r ∧ d.covers c r = true)

theorem superposed (s : Framebuffer width height) (ds : List (Sprite width height)) :
    Superposed s ds where
  answers := ⟨length_answers s ds, answers_ok s ds⟩
  parity c r h := pixel_drawAll s ds h
  reordered ds' h := drawAll_perm s h
  undone ds' h := drawAll_append_perm s h
  doubled := by
    rintro before d rest rfl
    obtain ⟨first, hfirst, hlit⟩ := answer_draw d (drawAll s before).1
    obtain ⟨second, hsecond, hdark⟩ := answer_draw d (d.draw (drawAll s before).1).1
    rw [finds_draw, Bool.not_true] at hdark
    refine ⟨first, second, ?_, ?_, hlit, hdark, ?_⟩
    · rw [drawAll_append, drawAll_cons, hfirst, ← length_answers s before]
      simp
    · rw [drawAll_append, drawAll_cons, drawAll_cons, hsecond, ← length_answers s before]
      simp
    · rw [hlit, hdark, finds_or_finds]

theorem superposed_in_corner :
    let a : Sprite 5 2 := ⟨3, 1, [-1, 7], ⟨by decide, by decide, by decide, by decide⟩⟩
    let b : Sprite 5 2 := ⟨2, 0, [0x30, 0x1F0], ⟨by decide, by decide, by decide, by decide⟩⟩
    (drawAll {} [a, b, b]).2 = [.ok false, .ok true, .ok true] ∧
      (drawAll {} [b, b, a]).2 = [.ok false, .ok true, .ok false] ∧
      (drawAll {} [b, b, a]).1 = (drawAll {} [a, b, b]).1 ∧
      (drawAll {} ([a, b, b] ++ [b, b, a])).1 = {} ∧ Superposed {} [a, b, b] := by
  intro a b
  have hsuper := superposed {} [a, b, b]
  have hperm : [a, b, b].Perm [b, b, a] :=
    (List.Perm.swap b a [b]).trans ((List.Perm.swap b a []).cons b)
  exact ⟨by decide, by decide, hsuper.reordered _ hperm, hsuper.undone _ hperm, hsuper⟩

end Chip8.Proofs.Superposition
