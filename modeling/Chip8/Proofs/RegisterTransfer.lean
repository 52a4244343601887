import Chip8.Proofs.Decoding
import Chip8.Proofs.Footprint

namespace Chip8.Proofs.RegisterTransfer

open Chip8.Machine
open Chip8.Proofs.Decoding
open Chip8.Proofs.Execution
open Chip8.Proofs.Footprint
open Chip8.Proofs.MemoryCells

section

variable (m : Machine) (x : Fin 16)

def slot (k : Fin 16) : Int :=
  m.registers.i + k.val

/-- What a machine is after its registers up to `x` were stored. -/
structure Saved (m' : Machine) : Prop where
  distinct : ∀ j ≤ x, ∀ k ≤ x, slot m j % 4096 = slot m k % 4096 → j = k
  stored : ∀ k ≤ x, programStart ≤ slot m k % 4096 →
    m'.memory.read (slot m k) = m.registers.byte k
  others : ∀ a : Int,
    (∀ k ≤ x, programStart ≤ slot m k % 4096 → a % 4096 ≠ slot m k % 4096) →
    m'.memory.read a = m.memory.read a
  rest : m' = { m with memory := m'.memory, registers := m.registers.advance 2 }

/-- What a machine is after its registers up to `x` were stored, overwritten and loaded. -/
structure Restored (m' : Machine) : Prop where
  index : m'.registers.i = m.registers.i
  bytes : ∀ k ≤ x, m'.registers.byte k =
    if programStart ≤ slot m k % 4096 then m.registers.byte k else m.memory.read (slot m k)
  beyond : ∀ k, x < k → m'.registers.byte k = m.registers.byte k

end

theorem byte_fill_of_le (r : Registers) {last k : Fin 16} (h : k ≤ last)
    (value : Fin 16 → UInt8) : (r.fill last value).byte k = value k := by
  simp only [Registers.fill, Registers.byte, Fin.getElem_fin, Vector.getElem_ofFn, Fin.eta,
    if_pos h]

theorem getElem?_bytes (r : Registers) (x k : Fin 16) :
    (r.v.toList.take (x.val + 1))[k.val]? = if k ≤ x then some (r.byte k) else none := by
  have hk := k.isLt
  rw [List.getElem?_take]
  by_cases h : k ≤ x
  · rw [if_pos h, if_pos (Nat.lt_succ_of_le h), List.getElem?_eq_getElem (by simp),
      Vector.getElem_toList]
    rfl
  · rw [if_neg h, if_neg (by omega)]

theorem slot_injective {m : Machine} {j k : Fin 16} (h : slot m j % 4096 = slot m k % 4096) :
    j = k := by
  have hj := j.isLt
  have hk := k.isLt
  simp only [slot] at h
  exact Fin.ext (by omega)

theorem execute_store (m : Machine) (word : Int) : m.execute .store word =
    m.writeMemory (m.registers.v.toList.take ((regX word).val + 1)) := by
  simp only [execute]

theorem execute_load (m : Machine) (word : Int) : m.execute .load word =
    m.setRegisters (m.registers.fill (regX word) fun k => m.memory.read (slot m k)) := by
  simp only [execute, slot]

theorem read_store (m : Machine) (word a : Int) :
    (m.execute .store word).machine.memory.read a =
      if programStart ≤ a % 4096 then
        (m.registers.v.toList.take ((regX word).val + 1))[((a - m.registers.i) % 4096).toNat]?.getD
          (m.memory.read a)
      else m.memory.read a := by
  have hlength : (m.registers.v.toList.take ((regX word).val + 1)).length ≤ memorySize := by
    have hsize : memorySize = 4096 := rfl
    rw [List.length_take, Vector.length_toList]
    omega
  rw [execute_store, ← read_writeAll m.memory _ m.registers.i a hlength]
  rfl

theorem saved_store (m : Machine) (word : Int) :
    Saved m (regX word) (m.execute .store word).machine := by
  constructor
  case distinct => exact fun _ _ _ _ => slot_injective
  case stored =>
    intro k hk hprogram
    have hindex : ((slot m k - m.registers.i) % 4096).toNat = k.val := by
      simp only [slot]
      omega
    rw [read_store, if_pos hprogram, hindex, getElem?_bytes, if_pos hk, Option.getD_some]
  case others =>
    intro a hothers
    rw [read_store]
    by_cases hprogram : (programStart : Int) ≤ a % 4096
    · rw [if_pos hprogram]
      -- A cell of the program region that is none of the slots is past the registers stored.
      rw [List.getElem?_eq_none, Option.getD_none]
      rw [List.length_take, Vector.length_toList]
      refine Decidable.byContradiction fun hlt => ?_
      have hcell : a % 4096 =
          slot m ⟨((a - m.registers.i) % 4096).toNat, by omega⟩ % 4096 := by
        simp only [slot]
        omega
      exact hothers _ (Fin.mk_le_of_le_val (by omega)) (hcell ▸ hprogram) hcell
    · rw [if_neg hprogram]
  case rest =>
    rw [execute_store]
    rfl

def overwritten (m : Machine) (x : Fin 16) (value : Fin 16 → UInt8) : Machine :=
  { m with registers := m.registers.fill x value }

theorem index_overwritten (m : Machine) (x : Fin 16) (value : Fin 16 → UInt8) :
    (overwritten m x value).registers.i = m.registers.i := by
  rw [overwritten, Registers.fill]

theorem memory_overwritten (m : Machine) (x : Fin 16) (value : Fin 16 → UInt8) :
    (overwritten m x value).memory = m.memory := by
  rw [overwritten]

theorem index_load (m : Machine) (word : Int) :
    (m.execute .load word).machine.registers.i = m.registers.i := by
  rw [execute_load, setRegisters, withRegisters, Registers.advance, Registers.fill]

theorem byte_setRegisters (m : Machine) (r : Registers) (k : Fin 16) :
    (m.setRegisters r).machine.registers.byte k = r.byte k :=
  rfl

theorem byte_load (m : Machine) (word : Int) (k : Fin 16) :
    (m.execute .load word).machine.registers.byte k =
      if k ≤ regX word then m.memory.read (slot m k) else m.registers.byte k := by
  rw [execute_load, byte_setRegisters]
  by_cases hk : k ≤ regX word
  · rw [if_pos hk, byte_fill_of_le _ hk]
  · rw [if_neg hk, byte_fill_of_lt _ hk]

theorem restored_load {m m' : Machine} {word : Int} (hsaved : Saved m (regX word) m')
    (between : Fin 16 → UInt8) :
    Restored m (regX word)
      ((overwritten m' (regX word) between).execute .load word).machine := by
  have hindex : m'.registers.i = m.registers.i := by
    rw [hsaved.rest]
    rfl
  have hslot : ∀ k, slot (overwritten m' (regX word) between) k = slot m k := by
    intro k
    rw [slot, slot, index_overwritten, hindex]
  constructor
  case index => rw [index_load, index_overwritten, hindex]
  case bytes =>
    intro k hk
    rw [byte_load, if_pos hk, hslot, memory_overwritten]
    by_cases hprogram : (programStart : Int) ≤ slot m k % 4096
    · rw [if_pos hprogram]
      exact hsaved.stored k hk hprogram
    · rw [if_neg hprogram]
      apply hsaved.others
      intro j _ hj heq
      exact hprogram (heq ▸ hj)
  case beyond =>
    intro k hk
    have hnot := Fin.not_le.mpr hk
    rw [byte_load, if_neg hnot, overwritten, byte_fill_of_lt _ hnot, hsaved.rest]
    rfl

/-- Registers that are stored, overwritten and loaded come back from the cells of the program
region, and nothing else of memory and the registers is touched by it. -/
theorem transfer_restores (m : Machine) (x : Fin 16) (between : Fin 16 → UInt8) :
    let storing : Nat := 0xF055 + 256 * x.val
    let loading : Nat := 0xF065 + 256 * x.val
    let stored := m.execute .store storing
    let loaded := (overwritten stored.machine x between).execute .load loading
    (Opcode.lookup storing = some .store ∧ Opcode.lookup loading = some .load) ∧
      (stored.result = .ok none ∧ loaded.result = .ok none) ∧
      Saved m x stored.machine ∧ Restored m x loaded.machine ∧
      loaded.machine.memory = stored.machine.memory := by
  intro storing loading stored loaded
  obtain ⟨hstore, hx⟩ : Opcode.lookup storing = some .store ∧ regX storing = x :=
    lookup_of_register rfl rfl
  obtain ⟨hload, hx'⟩ : Opcode.lookup loading = some .load ∧ regX loading = x :=
    lookup_of_register rfl rfl
  have hsaved := saved_store m storing
  rw [hx, ← hx'] at hsaved
  have hrestored := restored_load hsaved between
  rw [hx'] at hsaved hrestored
  exact ⟨⟨hstore, hload⟩, ⟨rfl, rfl⟩, hsaved, hrestored, rfl⟩

end Chip8.Proofs.RegisterTransfer
