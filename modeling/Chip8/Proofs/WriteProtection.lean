import Chip8.Proofs.Execution
import Chip8.Proofs.MemoryCells
import Chip8.Proofs.Reachability

namespace Chip8.Proofs.WriteProtection

open Chip8.Machine
open Chip8.Proofs.Execution
open Chip8.Proofs.MemoryCells
open Chip8.Proofs.Reachability

/-- The memory below the program region is as at power on: the font, then zeros. -/
def Protected (m : Machine) : Prop :=
  ∀ a : Nat, a < programStart → m.memory.read a = font.getD a 0

theorem read_execute_of_lt (m : Machine) (op : Opcode) (word : Int) {b : Int}
    (hb : b % 4096 < programStart) :
    (m.execute op word).machine.memory.read b = m.memory.read b := by
  have heffect := effect_execute m op word
  generalize m.execute op word = x at heffect
  cases heffect with
  | write hop data => exact read_writeAll_of_lt m.memory data m.registers.i hb
  | jump hop =>
      rw [jump]
      split <;> rfl
  | call hop =>
      rw [call]
      split <;> rfl
  | ret hop =>
      rw [ret]
      split <;> rfl
  | _ => rfl

theorem Protected.execute {m : Machine} (h : Protected m) (op : Opcode) (word : Int) :
    Protected (m.execute op word).machine := by
  intro a ha
  simp only [programStart] at ha
  rw [read_execute_of_lt m op word (by simp only [programStart]; omega)]
  exact h a ha

theorem protected_initial (a : Nat) (ha : a < programStart) :
    Memory.initial.read a = font.getD a 0 :=
  read_initial (Nat.lt_trans ha (by decide))

theorem protected_invariant : Invariant Protected where
  start _ := protected_initial
  load _ program a ha := by
    rw [read_loadProgram _ program (Nat.lt_trans ha (by decide)), if_pos ha]
    exact protected_initial a ha
  keys _ _ h := h
  timers _ _ _ h := h
  latch _ _ h := h
  execute _ op _ _ h := h.execute op _

theorem Protected.readBlock {m : Machine} (h : Protected m) (first count : Nat)
    (hcount : first + count ≤ programStart) :
    m.memory.readBlock first count = (List.range count).map fun k => font.getD (first + k) 0 := by
  rw [Memory.readBlock, Int.toNat_natCast]
  apply List.map_congr_left
  intro k hk
  rw [← h (first + k) (by have := List.mem_range.mp hk; omega)]
  rfl

/-- In every reachable state the first bytes of memory are the font, and the bytes from there to the
start of programs are zero. -/
theorem reserved_memory_of_reachable {e : Emulator} (h : Reachable e) :
    e.machine.memory.readBlock 0x000 0x50 = font ∧
      e.machine.memory.readBlock 0x050 0x1B0 = List.replicate 0x1B0 0 := by
  have hprotected := invariant_of_reachable protected_invariant h
  constructor
  · exact (hprotected.readBlock 0 0x50 (by decide)).trans rfl
  · rw [show (0x050 : Int) = ((0x50 : Nat) : Int) from rfl,
      show (0x1B0 : Int) = ((0x1B0 : Nat) : Int) from rfl, hprotected.readBlock 0x50 0x1B0 (by decide)]
    refine List.eq_replicate_iff.mpr ⟨by rw [List.length_map, List.length_range], ?_⟩
    intro b hb
    obtain ⟨k, -, rfl⟩ := List.mem_map.mp hb
    rw [List.getD_eq_getElem?_getD, List.getElem?_eq_none (Nat.le_add_right 0x50 k)]
    rfl

theorem reserved_memory_after_straddling_store : ∃ e,
    Emulator.new {} (.ofList [7]) = .ok e ∧
      let calls : List HostCall :=
        [.listen .displayUpdated { name := "host", event := .displayUpdated, action := .step },
          .load [0xA1, 0xFE, 0xD0, 0x15, 0xFF, 0x55] none, .run 4]
      (e.performAll calls).2.machine.memory.readBlock 0x000 0x50 = font ∧
        (e.performAll calls).2.machine.memory.readBlock 0x050 0x1B0 = List.replicate 0x1B0 0 :=
  ⟨_, rfl, reserved_memory_of_reachable (reachable_performAll (@Reachable.new {} _ _ rfl) _)⟩

end Chip8.Proofs.WriteProtection
