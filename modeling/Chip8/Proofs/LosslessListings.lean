import Chip8.Proofs.HexNumerals
import Chip8.Proofs.Listings
import Mathlib.Data.List.Induction

namespace Chip8.Proofs.LosslessListings

open Chip8.Disassembly
open Chip8.Proofs.HexNumerals
open Chip8.Proofs.Listings

def bytes (word : Nat) : List UInt8 :=
  [UInt8.ofNat (word / 256), UInt8.ofNat (word % 256)]

/-- Some bytes, with a zero after them if their number is odd. -/
def evened (data : List UInt8) : List UInt8 :=
  if data.length % 2 = 1 then data ++ [0] else data

theorem evened_cons_cons (high low : UInt8) (rest : List UInt8) :
    evened (high :: low :: rest) = high :: low :: evened rest := by
  have hparity : (high :: low :: rest).length % 2 = rest.length % 2 := by
    simp only [List.length_cons]
    omega
  rw [evened, evened, hparity]
  split
  · simp
  · rfl

theorem evened_of_even {data : List UInt8} (h : data.length % 2 = 0) : evened data = data := by
  rw [evened, if_neg (by omega)]

theorem bytes_pair (high low : UInt8) : bytes (high.toNat * 256 + low.toNat) = [high, low] := by
  have hhigh := high.toNat_lt
  have hlow := low.toNat_lt
  have hfirst : (high.toNat * 256 + low.toNat) / 256 = high.toNat := by omega
  have hlast : (high.toNat * 256 + low.toNat) % 256 = low.toNat := by omega
  simp only [bytes, hfirst, hlast, UInt8.ofNat_toNat]

theorem words_singleton (high : UInt8) : words [high] = [high.toNat * 256 + (0 : UInt8).toNat] := by
  simp [words, wordsOnto]

theorem bytes_words (data : List UInt8) : (words data).flatMap bytes = evened data := by
  induction data using List.twoStepInduction with
  | nil => rfl
  | singleton high =>
      rw [words_singleton, List.flatMap_singleton, bytes_pair]
      rfl
  | cons_cons high low rest ih _ =>
      rw [words_cons_cons, List.flatMap_cons, bytes_pair, ih, evened_cons_cons]
      rfl

theorem length_words (data : List UInt8) : (words data).length = (data.length + 1) / 2 := by
  induction data using List.twoStepInduction with
  | nil => rfl
  | singleton high => rw [words_singleton, List.length_singleton, List.length_singleton]
  | cons_cons high low rest ih _ =>
      simp only [words_cons_cons, List.length_cons, ih]
      omega

theorem word_lt {data : List UInt8} {word : Nat} (h : word ∈ words data) : word < 65536 := by
  obtain ⟨k, hk⟩ := List.getElem?_of_mem h
  rw [getElem?_words] at hk
  obtain ⟨high, -, rfl⟩ := Option.map_eq_some_iff.mp hk
  have hhigh := high.toNat_lt
  have hlow := (data[2 * k + 1]?.getD 0).toNat_lt
  omega

theorem words_evened (data : List UInt8) : words (evened data) = words data := by
  induction data using List.twoStepInduction with
  | nil => rfl
  | singleton high =>
      rw [words_singleton]
      exact words_cons_cons high 0 []
  | cons_cons high low rest ih _ => rw [evened_cons_cons, words_cons_cons, words_cons_cons, ih]

theorem words_eq_iff {data data' : List UInt8} :
    words data = words data' ↔ evened data = evened data' := by
  constructor
  · intro h
    rw [← bytes_words, ← bytes_words, h]
  · intro h
    rw [← words_evened, h, words_evened]

theorem tab_not_mem_padded (width n : Nat) : '\t' ∉ (Hex.padded width n).toList := by
  intro htab
  have hall : ∀ d < 16, Hex.digit d ≠ '\t' := by decide
  obtain ⟨d, hd, hsame⟩ := mem_padded htab
  exact hall d hd hsame.symm

theorem columns_format (l : Line) :
    l.format.toList.splitOn '\t' =
      (Hex.padded 4 l.address).toList :: (Hex.padded 4 l.word).toList ::
        l.text.toList.splitOn '\t' := by
  have hcolumns : l.format.toList =
      (Hex.padded 4 l.address).toList ++ '\t' ::
        ((Hex.padded 4 l.word).toList ++ '\t' :: l.text.toList) := by
    simp [Line.format]
  rw [hcolumns, List.splitOn_append_cons_self_of_not_mem (tab_not_mem_padded 4 _),
    List.splitOn_append_cons_self_of_not_mem (tab_not_mem_padded 4 _)]

theorem word_of_format {l l' : Line} (h : l.format = l'.format) : l.word = l'.word := by
  have hcolumns := congrArg (fun s : String => s.toList.splitOn '\t') h
  simp only [columns_format, List.cons.injEq, String.toList_inj] at hcolumns
  exact padded_injective hcolumns.2.1

theorem lines_of_inside {start : Int} (h : 0x200 ≤ start ∧ start ≤ 0xFFF) (image : List UInt8) :
    lines image start = .ok
      ((words (image.drop (start.toNat - programStart))).mapIdx fun k word =>
        lineOf (start.toNat + 2 * k) word) := by
  have hinside : (programStart : Int) ≤ start ∧ start < memorySize := by
    simp only [programStart, memorySize]
    omega
  rw [lines, if_pos hinside]

theorem lines_of_outside {start : Int} (h : ¬ (0x200 ≤ start ∧ start ≤ 0xFFF))
    (image : List UInt8) : lines image start = .error (.invalidStart start) := by
  have houtside : ¬ ((programStart : Int) ≤ start ∧ start < memorySize) := by
    simp only [programStart, memorySize]
    omega
  rw [lines, if_neg houtside]

theorem words_of_formats {ls ls' : List Line} (h : ls.map Line.format = ls'.map Line.format) :
    ls.map Line.word = ls'.map Line.word := by
  induction ls generalizing ls' with
  | nil =>
      rw [List.map_nil, eq_comm, List.map_eq_nil_iff] at h
      rw [h]
  | cons l rest ih =>
      rw [List.map_cons] at h
      obtain ⟨l', rest', rfl, hline, hrest⟩ := List.map_eq_cons_iff.mp h.symm
      rw [List.map_cons, List.map_cons, word_of_format hline, ih hrest.symm]

theorem map_word_lines (first : Nat) (ws : List Nat) :
    (ws.mapIdx fun k word => lineOf (first + 2 * k) word).map Line.word = ws := by
  apply List.ext_getElem?
  intro k
  rw [List.getElem?_map, List.getElem?_mapIdx, Option.map_map]
  exact Option.map_id'

theorem listing_eq_iff (image other : List UInt8) :
    listing image 0x200 = listing other 0x200 ↔ evened image = evened other := by
  have hinside : 0x200 ≤ (0x200 : Int) ∧ (0x200 : Int) ≤ 0xFFF := by decide
  rw [← words_eq_iff, listing, listing, lines_of_inside hinside, lines_of_inside hinside]
  constructor
  · intro hlistings
    have htexts := (List.cons.inj (Except.ok.inj hlistings)).2
    have hwords := words_of_formats htexts
    rwa [map_word_lines, map_word_lines] at hwords
  · intro hwords
    have hfirst : (0x200 : Int).toNat - programStart = 0 := rfl
    rw [hfirst, List.drop_zero, List.drop_zero, hwords]

/-- What the lines of an image from a start address on hold of it. -/
structure Covers (image : List UInt8) (start : Int) (ls : List Line) : Prop where
  count : (ls.length : Int) = (max 0 (image.length - (start - 0x200)) + 1) / 2
  address : ∀ k (h : k < ls.length), (ls[k].address : Int) = start + 2 * k
  word : ∀ l ∈ ls, l.word < 65536 ∧ l.opcode = Opcode.lookup l.word
  content : ls.flatMap (fun l => bytes l.word) = evened (image.drop (start - 0x200).toNat)

theorem covers_lines {start : Int} (h : 0x200 ≤ start ∧ start ≤ 0xFFF) (image : List UInt8) :
    ∃ ls, lines image start = .ok ls ∧ Covers image start ls := by
  have hoffset : start.toNat - programStart = (start - 0x200).toNat := by
    simp only [programStart]
    omega
  refine ⟨_, lines_of_inside h image, ?_⟩
  rw [hoffset]
  constructor
  case count =>
    rw [List.length_mapIdx, length_words, List.length_drop]
    omega
  case address =>
    intro k hk
    rw [List.getElem_mapIdx]
    simp only [lineOf]
    omega
  case word =>
    intro l hl
    obtain ⟨k, hk, rfl⟩ := List.mem_mapIdx.mp hl
    exact ⟨word_lt (List.getElem_mem hk), rfl⟩
  case content =>
    rw [← bytes_words, ← List.flatMap_map, map_word_lines]

/-- A start address outside of the program region is refused, and from any other one the listing
loses nothing of the image, however long it is. -/
theorem lines_lossless (image : List UInt8) (start : Int) :
    (lines image start = .error (.invalidStart start) ↔ ¬ (0x200 ≤ start ∧ start ≤ 0xFFF)) ∧
      (0x200 ≤ start ∧ start ≤ 0xFFF →
        ∃ ls, lines image start = .ok ls ∧ Covers image start ls) ∧
      ∀ other, (listing image 0x200 = listing other 0x200 ↔ evened image = evened other) ∧
        (image.length % 2 = 0 → other.length % 2 = 0 →
          listing image 0x200 = listing other 0x200 → image = other) := by
  refine ⟨?_, fun h => covers_lines h image, fun other => ⟨listing_eq_iff image other, ?_⟩⟩
  · by_cases hinside : 0x200 ≤ start ∧ start ≤ 0xFFF
    · obtain ⟨ls, hok, -⟩ := covers_lines hinside image
      rw [hok]
      exact iff_of_false nofun fun houtside => houtside hinside
    · exact iff_of_true (lines_of_outside hinside image) hinside
  · intro heven hother hlistings
    rw [← evened_of_even heven, ← evened_of_even hother]
    exact (listing_eq_iff image other).mp hlistings

theorem lossless_odd_tail :
    let image : List UInt8 := [0x12, 0x60, 0x05, 0xFF, 0xFF]
    (0x200 ≤ (0x202 : Int) ∧ (0x202 : Int) ≤ 0xFFF) ∧
      lines image 0x202 = .ok [⟨0x202, 0x05FF, none⟩, ⟨0x204, 0xFF00, none⟩] ∧
      (∃ ls, lines image 0x202 = .ok ls ∧ Covers image 0x202 ls) ∧
      listing image 0x200 = listing (image ++ [0]) 0x200 := by
  intro image
  have hinside : 0x200 ≤ (0x202 : Int) ∧ (0x202 : Int) ≤ 0xFFF := by decide
  obtain ⟨-, hlines, hlistings⟩ := lines_lossless image 0x202
  exact ⟨hinside, by decide, hlines hinside, (hlistings _).1.mpr (by decide)⟩

end Chip8.Proofs.LosslessListings
