import Chip8.Proofs.ByteScreens
import Mathlib.Data.Int.ConditionallyCompleteOrder
import Mathlib.Data.Int.Interval

namespace Chip8.Proofs.ScreenViews

open Chip8.Framebuffer
open Chip8.Proofs.ByteScreens
open Chip8.Proofs.Drawing
open Chip8.Proofs.Pixels

variable {width height : Int}

/-- The columns and rows of a screen, row by row. -/
def places (width height : Int) : List (Int × Int) :=
  (List.range height.toNat).flatMap fun (y : Nat) =>
    (List.range width.toNat).map fun (x : Nat) => ((x : Int), (y : Int))

theorem mem_places {x y : Int} : (x, y) ∈ places width height ↔ OnScreen width height x y := by
  simp only [places, List.mem_flatMap, List.mem_map, List.mem_range, Prod.mk.injEq]
  constructor
  · rintro ⟨row, hrow, column, hcolumn, rfl, rfl⟩
    exact ⟨by omega, by omega, by omega, by omega⟩
  · rintro ⟨hleft, hright, htop, hbottom⟩
    exact ⟨y.toNat, by omega, x.toNat, by omega, by omega, by omega⟩

theorem nodup_places : (places width height).Nodup := by
  rw [places, List.nodup_flatMap]
  constructor
  · intro y _
    apply List.nodup_range.map
    intro x x' hx
    simpa using hx
  · apply List.nodup_range.imp
    intro y y' hy
    simp only [Function.onFun, List.disjoint_left, List.mem_map]
    rintro _ ⟨x, -, rfl⟩ ⟨x', -, hx'⟩
    simp only [Prod.mk.injEq, Int.ofNat_inj] at hx'
    exact hy hx'.2.symm

theorem take_lines {α : Type} (cells : List α) (width count : Nat) :
    cells.take (count * width) =
      (List.range count).flatMap fun y => (cells.drop (y * width)).take width := by
  induction count with
  | zero => simp
  | succ count ih =>
      rw [Nat.succ_mul, List.take_add, ih, List.range_succ, List.flatMap_append]
      simp

theorem line_eq (s : Framebuffer width height) (y : Nat) :
    (s.cells.toArray.extract (y * width.toNat) ((y + 1) * width.toNat)).toList =
      (s.cells.toList.drop (y * width.toNat)).take width.toNat := by
  rw [Array.toList_extract, List.extract_eq_take_drop, Nat.succ_mul, Nat.add_sub_cancel_left]
  rfl

theorem getElem?_cells {x y : Int} (h : OnScreen width height x y) (s : Framebuffer width height) :
    s.cells.toList[(y * width + x).toNat]? = some (pixel s x y) := by
  obtain ⟨hcell, hget⟩ := cellAt_eq h.left h.right h.top h.bottom
  have hpixel := getPixel_eq h s
  rw [getPixel, hget] at hpixel
  rw [List.getElem?_eq_getElem (by rwa [Vector.length_toList]), ← Except.ok.inj hpixel]
  rfl

theorem rows_eq (hwidth : 0 ≤ width) (s : Framebuffer width height) :
    s.rows = (List.range height.toNat).map fun (y : Nat) =>
      (List.range width.toNat).map fun (x : Nat) => pixel s x y := by
  apply List.map_congr_left
  intro y hy
  rw [List.mem_range] at hy
  rw [line_eq]
  apply List.ext_getElem?
  intro x
  by_cases hx : x < width.toNat
  · have hcell : ((y : Int) * width + x).toNat = y * width.toNat + x := by
      obtain ⟨w, rfl⟩ := Int.eq_ofNat_of_zero_le hwidth
      rw [Int.toNat_natCast]
      omega
    have hlit := getElem?_cells (x := x) (y := y) ⟨by omega, by omega, by omega, by omega⟩ s
    rw [hcell] at hlit
    rw [List.getElem?_take_of_lt hx, List.getElem?_drop, hlit]
    simp [hx]
  · rw [List.getElem?_eq_none (by rw [List.length_take]; omega)]
    simp [hx]

section

variable (hwidth : 0 ≤ width) (hheight : 0 ≤ height) (s : Framebuffer width height)

include hwidth hheight

theorem flatten_rows : s.rows.flatten = s.cells.toList := by
  have hlength : s.cells.toList.length = height.toNat * width.toNat := by
    rw [Vector.length_toList, Int.toNat_mul hwidth hheight, Nat.mul_comm]
  have hall := take_lines s.cells.toList width.toNat height.toNat
  rw [← hlength, List.take_length] at hall
  rw [hall, rows, List.flatMap_def]
  congr 1
  apply List.map_congr_left
  intro y _
  rw [line_eq]

theorem cells_eq : s.cells.toList = (places width height).map fun p => pixel s p.1 p.2 := by
  rw [← flatten_rows hwidth hheight, rows_eq hwidth, places, List.map_flatMap,
    List.flatMap_def]
  simp only [List.map_map, Function.comp_def]

theorem count_cells : s.cells.toList.count true =
    ((Finset.Ico 0 width ×ˢ Finset.Ico 0 height).filter fun p =>
      s.getPixel p.1 p.2 = .ok true).card := by
  have hlit : ((Finset.Ico 0 width ×ˢ Finset.Ico 0 height).filter fun p =>
      s.getPixel p.1 p.2 = .ok true) =
        ((places width height).filter fun p => pixel s p.1 p.2).toFinset := by
    ext ⟨x, y⟩
    have hplace : x ∈ Finset.Ico 0 width ∧ y ∈ Finset.Ico 0 height ↔ OnScreen width height x y := by
      rw [Finset.mem_Ico, Finset.mem_Ico]
      exact ⟨fun h => ⟨h.1.1, h.1.2, h.2.1, h.2.2⟩, fun h => ⟨⟨h.left, h.right⟩, h.top, h.bottom⟩⟩
    rw [Finset.mem_filter, Finset.mem_product, hplace, List.mem_toFinset, List.mem_filter,
      mem_places, pixel, decide_eq_true_eq]
  rw [hlit, List.toFinset_card_of_nodup (nodup_places.filter _), cells_eq hwidth hheight,
    List.count_eq_countP, List.countP_map, List.countP_eq_length_filter]
  congr 1
  apply List.filter_congr
  simp

end

theorem toList_line (on off : Char) (row : List Bool) (before : String) :
    (row.foldl (fun line p => line ++ if p then String.singleton on else String.singleton off)
      before).toList = before.toList ++ row.map fun p => if p then on else off := by
  induction row generalizing before with
  | nil => simp
  | cons p rest ih =>
      rw [List.foldl_cons, ih]
      cases p <;> simp

theorem toList_render (s : Framebuffer width height) (on off : Char) :
    (s.render (String.singleton on) (String.singleton off)).toList =
      ['\n'].intercalate (s.rows.map fun row => row.map fun p => if p then on else off) := by
  rw [render, String.toList_intercalate, List.map_map]
  congr 1
  apply List.map_congr_left
  intro row _
  simp [toList_line]

theorem count_intercalate {c separator : Char} (h : c ≠ separator) (lines : List (List Char)) :
    ([separator].intercalate lines).count c = lines.flatten.count c := by
  induction lines with
  | nil => rfl
  | cons line rest ih =>
      cases rest with
      | nil => simp
      | cons next rest =>
          rw [List.intercalate_cons_cons, List.count_append, List.count_append, ih,
            List.flatten_cons, List.count_append, List.count_singleton]
          simp [h.symm]

theorem getElem?_intercalate {separator : Char} {width : Nat} {lines : List (List Char)}
    (h : ∀ line ∈ lines, line.length = width) {x : Nat} (hx : x < width) (y : Nat) :
    ([separator].intercalate lines)[y * (width + 1) + x]? =
      lines[y]?.bind fun text => text[x]? := by
  induction lines generalizing y with
  | nil => rfl
  | cons line rest ih =>
      have hline := h line List.mem_cons_self
      cases y with
      | zero =>
          have hfirst : x < line.length := by omega
          rw [Nat.zero_mul, Nat.zero_add]
          cases rest with
          | nil => simp
          | cons next rest =>
              rw [List.intercalate_cons_cons, List.append_assoc, List.getElem?_append_left hfirst]
              rfl
      | succ y =>
          have hpast : (y + 1) * (width + 1) + x = line.length + 1 + (y * (width + 1) + x) := by
            rw [Nat.succ_mul]
            omega
          rw [hpast]
          cases rest with
          | nil =>
              have hlast : [separator].intercalate [line] = line := by simp
              rw [hlast, List.getElem?_eq_none (by omega)]
              rfl
          | cons next rest =>
              have hrest := ih (fun l hl => h l (List.mem_cons_of_mem _ hl)) y
              rw [List.intercalate_cons_cons, List.getElem?_append_right (by simp),
                List.getElem?_cons_succ, ← hrest]
              simp

theorem bit_injective : Function.Injective bit := by
  intro on on'
  cases on <;> cases on' <;> decide

theorem letter_injective {on off : Char} (h : on ≠ off) :
    Function.Injective fun p : Bool => if p then on else off := by
  intro p p'
  cases p <;> cases p' <;> simp [h, h.symm]

/-- All views of a screen show the same pixels. -/
structure OnePicture (s : Framebuffer width height) : Prop where
  rowCount : s.rows.length = height.toNat
  rowLength : ∀ row ∈ s.rows, row.length = width.toNat
  cellCount : s.snapshot.length = (width * height).toNat
  pixels : ∀ x y, OnScreen width height x y → ∃ lit, s.getPixel x y = .ok lit ∧
    (s.rows[y.toNat]?.bind fun row => row[x.toNat]?) = some lit ∧
    s.snapshot[(y * width + x).toNat]? = some (bit lit) ∧
    ∀ on off, (s.render (String.singleton on) (String.singleton off)).toList[
      (y * (width + 1) + x).toNat]? = some (if lit then on else off)
  inRows : s.litCount = s.rows.flatten.count true
  inSnapshot : s.litCount = s.snapshot.count 1
  inPixels : s.litCount = ((Finset.Ico 0 width ×ˢ Finset.Ico 0 height).filter fun p =>
    s.getPixel p.1 p.2 = .ok true).card
  inText : ∀ on off, on ≠ off → on ≠ '\n' → s.litCount =
    (s.render (String.singleton on) (String.singleton off)).toList.count on

theorem getElem?_rows {x y : Int} (h : OnScreen width height x y) (s : Framebuffer width height) :
    (s.rows[y.toNat]?.bind fun row => row[x.toNat]?) = some (pixel s x y) := by
  obtain ⟨hleft, hright, htop, hbottom⟩ := h
  rw [rows_eq (by omega)]
  simp [show y.toNat < height.toNat by omega, show x.toNat < width.toNat by omega, hleft, htop]

theorem length_row (hwidth : 0 ≤ width) (s : Framebuffer width height) :
    ∀ row ∈ s.rows, row.length = width.toNat := by
  rw [rows_eq hwidth]
  simp

theorem getElem?_render {x y : Int} (h : OnScreen width height x y) (s : Framebuffer width height)
    (on off : Char) :
    (s.render (String.singleton on) (String.singleton off)).toList[(y * (width + 1) + x).toNat]? =
      some (if pixel s x y then on else off) := by
  have hrow := getElem?_rows h s
  obtain ⟨hleft, hright, htop, hbottom⟩ := h
  have hindex : (y * (width + 1) + x).toNat = y.toNat * (width.toNat + 1) + x.toNat := by
    obtain ⟨w, rfl⟩ := Int.eq_ofNat_of_zero_le (show 0 ≤ width by omega)
    obtain ⟨r, rfl⟩ := Int.eq_ofNat_of_zero_le htop
    obtain ⟨c, rfl⟩ := Int.eq_ofNat_of_zero_le hleft
    exact Int.toNat_natCast (r * (w + 1) + c)
  have hlength : ∀ line ∈ s.rows.map fun row => row.map fun p => if p then on else off,
      line.length = width.toNat := by
    intro line hline
    obtain ⟨row, hmem, rfl⟩ := List.mem_map.mp hline
    rw [List.length_map, length_row (by omega) s row hmem]
  rw [toList_render, hindex, getElem?_intercalate hlength (by omega), List.getElem?_map,
    Option.bind_map]
  obtain ⟨row, hmem, hlit⟩ := Option.bind_eq_some_iff.mp hrow
  rw [hmem]
  simp [hlit]

theorem onePicture (hwidth : 0 ≤ width) (hheight : 0 ≤ height) (s : Framebuffer width height) :
    OnePicture s where
  rowCount := by simp [rows]
  rowLength := length_row hwidth s
  cellCount := by rw [snapshot, List.length_map, Vector.length_toList]
  pixels x y h := by
    refine ⟨pixel s x y, getPixel_eq h s, getElem?_rows h s, ?_, getElem?_render h s⟩
    rw [snapshot, List.getElem?_map, getElem?_cells h]
    rfl
  inRows := by rw [litCount_eq, flatten_rows hwidth hheight]
  inSnapshot := by
    rw [litCount_eq]
    exact (List.count_map_of_injective s.cells.toList bit bit_injective true).symm
  inPixels := by rw [litCount_eq, count_cells hwidth hheight]
  inText on off hdistinct hbreak := by
    have hletter := List.count_map_of_injective s.cells.toList _ (letter_injective hdistinct) true
    rw [toList_render, count_intercalate hbreak, ← List.map_flatten, flatten_rows hwidth hheight,
      litCount_eq, ← hletter]
    rfl

/-- Whatever was done to a screen that was dark, also by calls that failed midway, its bytes are
single bits and all its views show one picture. -/
theorem onePicture_of_commands {width height : Int} (hwidth : 0 ≤ width) (hheight : 0 ≤ height)
    (cs : List Command) :
    let screen := performAll Command.onBits ({} : Framebuffer width height) cs
    let bytes := performAll Command.onBytes ({} : ByteScreen width height) cs
    bytes.2 = screen.2 ∧ SameScreen bytes.1 screen.1 ∧ OnePicture screen.1 := by
  intro screen bytes
  have hsame := sameScreen_performAll ({} : Framebuffer width height) cs
  rw [bytes_dark] at hsame
  exact ⟨hsame.1, hsame.2, onePicture hwidth hheight screen.1⟩

theorem onePicture_after_failures :
    let commands : List Command :=
      [.setByte (-2) 2 0x1C0, .draw (-6) 0 [0x3FF, -3], .setPixel 9 0 true]
    let screen := performAll Command.onBits ({} : Framebuffer 4 2) commands
    let bytes := performAll Command.onBytes ({} : ByteScreen 4 2) commands
    (0 : Int) ≤ 4 ∧ (0 : Int) ≤ 2 ∧
      screen.2 = [.error .pixelOutOfRange, .ok (some true), .error .pixelOutOfRange] ∧
      screen.1.litCount = 3 ∧
      bytes.2 = screen.2 ∧ SameScreen bytes.1 screen.1 ∧ OnePicture screen.1 := by
  intro commands screen bytes
  refine ⟨by decide, by decide, by decide, by decide, ?_⟩
  exact onePicture_of_commands (by decide) (by decide) commands

/-- If the line break stands for lit pixels, the text of a dark screen has one. -/
theorem line_break_counted :
    '\n' ≠ '.' ∧ ({} : Framebuffer 1 2).litCount ≠
      (({} : Framebuffer 1 2).render (String.singleton '\n') (String.singleton '.')).toList.count
        '\n' := by
  decide

end Chip8.Proofs.ScreenViews
