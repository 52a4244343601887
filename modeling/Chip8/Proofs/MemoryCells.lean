import Chip8.Machine

namespace Chip8.Proofs.MemoryCells

open Chip8.Memory

theorem cell_eq_iff (a b : Int) : cell a = cell b ↔ a % 4096 = b % 4096 := by
  simp only [cell, Fin.mk.injEq]
  omega

theorem read_congr (m : Memory) {a b : Int} (h : a % 4096 = b % 4096) : m.read a = m.read b := by
  simp only [Memory.read, (cell_eq_iff a b).mpr h]

theorem read_set (m : Memory) (a b : Int) (value : UInt8) :
    (m.set a value).read b = if a % 4096 = b % 4096 then value else m.read b := by
  simp only [Memory.read, Memory.set, Fin.getElem_fin, Vector.getElem_set, Fin.val_inj,
    cell_eq_iff]

theorem readWord_lt (m : Memory) (a : Int) : m.readWord a < 65536 := by
  have hhigh := (m.read a).toNat_lt
  have hlow := (m.read (a + 1)).toNat_lt
  simp only [readWord]
  omega

theorem read_load (m : Memory) (data : List UInt8) (base c : Int)
    (hlength : data.length ≤ memorySize) :
    (m.load data base).read c = data[((c - base) % 4096).toNat]?.getD (m.read c) := by
  induction data generalizing m base with
  | nil => rfl
  | cons b rest ih =>
      simp only [List.length_cons, memorySize] at hlength
      rw [Memory.load, ih (m.set base b) (base + 1) (by simp only [memorySize]; omega), read_set]
      by_cases hfirst : base % 4096 = c % 4096
      · have hindex : ((c - base) % 4096).toNat = 0 := by omega
        have hpast : rest.length ≤ ((c - (base + 1)) % 4096).toNat := by omega
        rw [if_pos hfirst, hindex, List.getElem?_eq_none hpast]
        rfl
      · have hindex : ((c - base) % 4096).toNat = ((c - (base + 1)) % 4096).toNat + 1 := by omega
        rw [if_neg hfirst, hindex, List.getElem?_cons_succ]

theorem read_initial {a : Nat} (ha : a < memorySize) : Memory.initial.read a = font.getD a 0 := by
  have hzero : ({} : Memory).read a = 0 := by
    simp only [Memory.read, Fin.getElem_fin, Vector.getElem_replicate]
  simp only [memorySize] at ha
  rw [Memory.initial, Memory.loadFont, read_load _ _ _ _ (by decide), hzero,
    show (((a : Int) - 0) % 4096).toNat = a by omega, List.getD_eq_getElem?_getD]

theorem read_loadProgram (m : Memory) (program : List UInt8) {a : Nat} (ha : a < memorySize) :
    (m.loadProgram program).2.read a =
      if a < programStart then m.read a
      else (program.take maxProgramSize)[a - programStart]?.getD (m.read a) := by
  have hlength : (program.take maxProgramSize).length ≤ maxProgramSize := List.length_take_le _ _
  have hstart : programStart = 512 := rfl
  have hregion : maxProgramSize = 3584 := rfl
  have hsize : memorySize = 4096 := rfl
  rw [Memory.loadProgram, read_load _ _ _ _ (by omega)]
  by_cases hbelow : a < programStart
  · rw [if_pos hbelow, List.getElem?_eq_none (by omega), Option.getD_none]
  · have hindex : (((a : Int) - programStart) % 4096).toNat = a - programStart := by omega
    rw [if_neg hbelow, hindex]

theorem getElem?_cells (m : Memory) {a : Nat} (ha : a < memorySize) :
    m.cells.toList[a]? = some (m.read a) := by
  have hcell : (cell a).val = a := by
    simp only [cell, memorySize] at ha ⊢
    omega
  have hlt : a < m.cells.toList.length := by rwa [Vector.length_toList]
  rw [List.getElem?_eq_getElem hlt, Vector.getElem_toList, Memory.read]
  simp only [Fin.getElem_fin, hcell]

theorem cell_val (a : Int) : ((cell a).val : Int) = a % 4096 := by
  simp only [cell]
  omega

theorem region_of_eq (a : Int) :
    Region.of a = if (cell a).val < 0x50 then .font
      else if (cell a).val < programStart then .reserved else .program := by
  simp only [Region.of, Region.find?_eq (cell a).isLt, Option.get_some]

theorem writable_of_iff (a : Int) :
    (Region.of a).writable = true ↔ (programStart : Int) ≤ a % 4096 := by
  rw [region_of_eq, ← cell_val, Int.ofNat_le]
  by_cases hfont : (cell a).val < 0x50
  · rw [if_pos hfont]
    simp only [Region.writable, Bool.false_eq_true, false_iff, programStart]
    omega
  · by_cases hreserved : (cell a).val < programStart
    · rw [if_neg hfont, if_pos hreserved]
      simp only [Region.writable, Bool.false_eq_true, false_iff]
      omega
    · rw [if_neg hfont, if_neg hreserved]
      simp only [Region.writable, true_iff]
      omega

theorem read_write (m : Memory) (a b value : Int) :
    (m.write a value).2.read b =
      if (programStart : Int) ≤ a % 4096 ∧ a % 4096 = b % 4096 then toByte value
      else m.read b := by
  by_cases hwritable : (Region.of a).writable = true
  · rw [Memory.write, if_pos hwritable, read_set]
    simp only [(writable_of_iff a).mp hwritable, true_and]
  · rw [Memory.write, if_neg hwritable, if_neg fun h => hwritable ((writable_of_iff a).mpr h.1)]

theorem read_writeAll_of_lt (m : Memory) (data : List UInt8) (address : Int) {b : Int}
    (hb : b % 4096 < programStart) : (m.writeAll address data).1.read b = m.read b := by
  induction data generalizing m address with
  | nil => rfl
  | cons value rest ih =>
      simp only [Memory.writeAll]
      rw [ih, read_write, if_neg (by omega)]

/-- After a program's writes of at most a whole memory, a cell of the program region holds the byte
whose distance from the first address it has, if there is one. -/
theorem read_writeAll (m : Memory) (data : List UInt8) (base c : Int)
    (hlength : data.length ≤ memorySize) :
    (m.writeAll base data).1.read c =
      if (programStart : Int) ≤ c % 4096 then data[((c - base) % 4096).toNat]?.getD (m.read c)
      else m.read c := by
  by_cases hprogram : (programStart : Int) ≤ c % 4096
  · rw [if_pos hprogram]
    induction data generalizing m base with
    | nil => rfl
    | cons b rest ih =>
        simp only [List.length_cons, memorySize] at hlength
        simp only [Memory.writeAll]
        rw [ih _ (base + 1) (by simp only [memorySize]; omega), read_write]
        by_cases hfirst : base % 4096 = c % 4096
        · have hindex : ((c - base) % 4096).toNat = 0 := by omega
          have hpast : rest.length ≤ ((c - (base + 1)) % 4096).toNat := by omega
          rw [if_pos ⟨by omega, hfirst⟩, hindex, List.getElem?_eq_none hpast, toByte_toNat]
          rfl
        · have hindex : ((c - base) % 4096).toNat = ((c - (base + 1)) % 4096).toNat + 1 := by
            omega
          rw [if_neg fun h => hfirst h.2, hindex, List.getElem?_cons_succ]
  · rw [if_neg hprogram]
    exact read_writeAll_of_lt m data base (by omega)

end Chip8.Proofs.MemoryCells
