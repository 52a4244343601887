import Mathlib.Data.List.Sort
import Mathlib.Order.Bounds.Defs
import Chip8.Emulator.Call

namespace Chip8.Proofs.HeldKeys

open Chip8.Emulator

inductive Stroke
  | press (key : Fin 16)
  | release (key : Fin 16)

namespace Stroke

def apply (k : Keypad) : Stroke → Keypad
  | press key => k.press key
  | release key => k.release key

def call : Stroke → HostCall
  | press key => .keyDown (.int key.val)
  | release key => .keyUp (.int key.val)

end Stroke

theorem isDown_set (k : Keypad) (key other : Fin 16) (down : Bool) :
    Keypad.isDown ⟨k.keys.setIfInBounds key down⟩ other =
      if key = other then down else k.isDown other := by
  simp only [Fin.ext_iff]
  exact Vector.getElem_setIfInBounds other.isLt

theorem isDown_press (k : Keypad) (key other : Fin 16) :
    (k.press key).isDown other = true ↔ key = other ∨ k.isDown other = true := by
  rw [Keypad.press, isDown_set]
  split <;> simp [*]

theorem isDown_release (k : Keypad) (key other : Fin 16) :
    (k.release key).isDown other = true ↔ key ≠ other ∧ k.isDown other = true := by
  rw [Keypad.release, isDown_set]
  split <;> simp [*]

theorem isLeast_of_first? {k : Keypad} {key : Fin 16} (h : k.first? = some key) :
    IsLeast {key | k.isDown key = true} key := by
  obtain ⟨hdown, below, above, hkeys, hbelow⟩ := List.find?_eq_some_iff_append.mp h
  refine ⟨hdown, fun other hother => ?_⟩
  have hsorted := (List.sortedLT_finRange 16).pairwise
  have hmem := List.mem_finRange other
  rw [hkeys] at hsorted hmem
  rcases List.mem_append.mp hmem with hlow | hhigh
  · exact absurd hother (by simpa using hbelow other hlow)
  · rcases List.mem_cons.mp hhigh with rfl | habove
    · exact le_refl _
    · have hordered := (List.pairwise_cons.mp (List.pairwise_append.mp hsorted).2.1).1
      exact le_of_lt (hordered other habove)

theorem first?_ne_none {k : Keypad} {key : Fin 16} (h : k.isDown key = true) :
    k.first? ≠ none := by
  intro hnone
  exact List.find?_eq_none.mp hnone key (List.mem_finRange key) h

theorem toKey_val (key : Fin 16) : (HostValue.int key.val).toKey = .ok key := by
  rw [HostValue.toKey, dif_pos (by omega)]
  rfl

theorem change_val (k : Keypad) (key : Fin 16) (f : Keypad → Fin 16 → Keypad) :
    k.change (.int key.val) f = (.ok (), f k key) := by
  rw [Keypad.change, toKey_val]

end Chip8.Proofs.HeldKeys
