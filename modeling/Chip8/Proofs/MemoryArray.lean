import Chip8.Proofs.MemoryCells
import Mathlib.Data.List.Induction

namespace Chip8.Proofs.MemoryArray

open Chip8.Memory
open Chip8.Proofs.MemoryCells

/-- The last one of `n` addresses from `base` on that selects the cell of `c` is the one at a
distance of `i`. -/
structure LastAt (base c : Int) (n i : Nat) : Prop where
  lt : i < n
  same : (base + i) % 4096 = c % 4096
  last : ∀ j < n, i < j → (base + j) % 4096 ≠ c % 4096

/-- What writes, loads and reads of a memory have to do with each other. Addresses and values are
any integers. -/
structure ArrayLaws (m : Memory) : Prop where
  written : ∀ a v : Int, (m.write a v).1 = true ↔ 0x200 ≤ a % 4096
  read_written : ∀ a b v : Int, ((m.write a v).2.read b).toNat =
    if (m.write a v).1 = true ∧ b % 4096 = a % 4096 then v % 256 else (m.read b).toNat
  loaded : ∀ (data : List UInt8) (base c : Int) (i : Nat), LastAt base c data.length i →
    data[i]? = some ((m.load data base).read c)
  untouched : ∀ (data : List UInt8) (base c : Int),
    (∀ i < data.length, (base + i) % 4096 ≠ c % 4096) → (m.load data base).read c = m.read c
  block : ∀ (data : List UInt8) (base : Int), data.length ≤ 4096 →
    (m.load data base).readBlock base data.length = data
  /-- What is read back of a load that goes round the memory is the last round through each cell. -/
  rounds : ∀ (data : List UInt8) (base : Int) (k : Nat), k < data.length →
    ((m.load data base).readBlock base data.length)[k]? =
      data[k + (data.length - 1 - k) / 4096 * 4096]?

theorem write_true_iff (m : Memory) (a v : Int) : (m.write a v).1 = true ↔ 0x200 ≤ a % 4096 := by
  have hwritable := writable_of_iff a
  rw [show (programStart : Int) = 0x200 from rfl] at hwritable
  rw [← hwritable, Memory.write]
  cases (Region.of a).writable <;> simp

theorem toNat_read_write (m : Memory) (a b v : Int) : ((m.write a v).2.read b).toNat =
    if (m.write a v).1 = true ∧ b % 4096 = a % 4096 then v % 256 else (m.read b).toNat := by
  have hbyte : ((toByte v).toNat : Int) = v % 256 := by
    rw [toNat_toByte]
    omega
  have hstart : (programStart : Int) = 0x200 := rfl
  simp only [read_write, write_true_iff, hstart, eq_comm (a := b % 4096)]
  split
  · exact hbyte
  · rfl

theorem load_append (m : Memory) (data rest : List UInt8) (base : Int) :
    m.load (data ++ rest) base = (m.load data base).load rest (base + data.length) := by
  induction data generalizing m base with
  | nil => simp [Memory.load]
  | cons b data ih =>
      have hnext : base + 1 + data.length = base + (data.length + 1 : Nat) := by omega
      rw [List.cons_append, Memory.load, Memory.load, ih, hnext, List.length_cons]

theorem read_load_concat (m : Memory) (data : List UInt8) (b : UInt8) (base c : Int) :
    (m.load (data ++ [b]) base).read c =
      if (base + data.length) % 4096 = c % 4096 then b else (m.load data base).read c := by
  rw [load_append, Memory.load, Memory.load, read_set]

theorem read_load_lastAt (m : Memory) {data : List UInt8} {base c : Int} {i : Nat}
    (h : LastAt base c data.length i) : data[i]? = some ((m.load data base).read c) := by
  -- By induction on the bytes from the last one on, which is stored over all others.
  induction data using List.reverseRecOn with
  | nil => exact absurd h.lt (Nat.not_lt_zero i)
  | append_singleton data b ih =>
      have hlt := h.lt
      have hlast := h.last
      rw [List.length_append, List.length_singleton] at hlt hlast
      rw [read_load_concat]
      rcases Nat.lt_or_eq_of_le (Nat.le_of_lt_succ hlt) with hbefore | rfl
      · rw [if_neg (hlast data.length (Nat.lt_succ_self _) hbefore),
          List.getElem?_append_left hbefore]
        exact ih ⟨hbefore, h.same, fun j hj => hlast j (Nat.lt_succ_of_lt hj)⟩
      · rw [if_pos h.same, List.getElem?_concat_length]

theorem read_load_untouched (m : Memory) {data : List UInt8} {base c : Int}
    (h : ∀ i < data.length, (base + i) % 4096 ≠ c % 4096) :
    (m.load data base).read c = m.read c := by
  induction data using List.reverseRecOn with
  | nil => rfl
  | append_singleton data b ih =>
      rw [List.length_append, List.length_singleton] at h
      rw [read_load_concat, if_neg (h data.length (Nat.lt_succ_self _))]
      exact ih fun i hi => h i (Nat.lt_succ_of_lt hi)

theorem lastAt_round (base : Int) {n k : Nat} (h : k < n) :
    LastAt base (base + k) n (k + (n - 1 - k) / 4096 * 4096) where
  lt := by omega
  same := by omega
  last j hj hlater := by omega

theorem getElem?_readBlock (m : Memory) (a : Int) {n k : Nat} (h : k < n) :
    (m.readBlock a n)[k]? = some (m.read (a + k)) := by
  rw [readBlock, Int.toNat_natCast, List.getElem?_map, List.getElem?_range h, Option.map_some]

theorem getElem?_readBlock_load (m : Memory) {data : List UInt8} (base : Int) {k : Nat}
    (h : k < data.length) : ((m.load data base).readBlock base data.length)[k]? =
      data[k + (data.length - 1 - k) / 4096 * 4096]? := by
  rw [getElem?_readBlock _ _ h]
  exact (read_load_lastAt m (lastAt_round base h)).symm

theorem readBlock_load (m : Memory) {data : List UInt8} (base : Int)
    (hlength : data.length ≤ 4096) : (m.load data base).readBlock base data.length = data := by
  have hcount : ((m.load data base).readBlock base data.length).length = data.length := by
    rw [readBlock, List.length_map, List.length_range, Int.toNat_natCast]
  apply List.ext_getElem?
  intro k
  by_cases hk : k < data.length
  · have hround : k + (data.length - 1 - k) / 4096 * 4096 = k := by omega
    rw [getElem?_readBlock_load m base hk, hround]
  · rw [List.getElem?_eq_none (by omega), List.getElem?_eq_none (by omega)]

/-- Every memory is an array modulo 4096 whose lowest cells only a load can change. -/
theorem array_laws (m : Memory) : ArrayLaws m where
  written := write_true_iff m
  read_written := toNat_read_write m
  loaded _ _ _ _ h := read_load_lastAt m h
  untouched _ _ _ h := read_load_untouched m h
  block _ base h := readBlock_load m base h
  rounds _ base _ h := getElem?_readBlock_load m base h

end Chip8.Proofs.MemoryArray
