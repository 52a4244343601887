import Chip8.Proofs.Execution

namespace Chip8.Proofs.Overlay

open Chip8.Machine
open Chip8.Proofs.Execution

variable (sound : Countdown → Countdown) (stack : Vector UInt16 16 → Vector UInt16 16)

/-- The machine with another sound timer and other slots in its call stack. -/
def overlaid (m : Machine) : Machine :=
  { m with
    sound := sound m.sound
    registers := { m.registers with stack := stack m.registers.stack } }

def carried (x : Execution) : Execution :=
  { x with machine := overlaid sound stack x.machine }

@[simp]
theorem read_overlaid (m : Machine) (x : Fin 16) :
    (overlaid sound stack m).registers.read x = m.registers.read x :=
  rfl

@[simp]
theorem byte_overlaid (m : Machine) (x : Fin 16) :
    (overlaid sound stack m).registers.byte x = m.registers.byte x :=
  rfl

theorem setRegister_overlaid (m : Machine) (x : Fin 16) (value : Int) :
    (overlaid sound stack m).setRegister x value =
      carried sound stack (m.setRegister x value) := by
  unfold setRegister Registers.store
  by_cases hvalue : IsByte value
  · rw [if_pos hvalue, if_pos hvalue]
    rfl
  · rw [if_neg hvalue, if_neg hvalue]
    rfl

theorem setWithFlag_overlaid (m : Machine) (x : Fin 16) (flag : Int) {result : Registers → Int}
    (hresult : ∀ r : Registers, result { r with stack := stack r.stack } = result r) :
    (overlaid sound stack m).setWithFlag x flag result =
      carried sound stack (m.setWithFlag x flag result) := by
  unfold setWithFlag Registers.store
  by_cases hflag : IsByte flag
  · rw [if_pos hflag, if_pos hflag]
    dsimp only
    rw [← hresult (m.registers.write Registers.flag (toByte flag)), ← setRegister_overlaid]
    rfl
  · rw [if_neg hflag, if_neg hflag]
    rfl

theorem jump_overlaid (m : Machine) (target : Nat) :
    (overlaid sound stack m).jump target = carried sound stack (m.jump target) := by
  unfold jump
  by_cases hself : m.registers.pc = target
  · rw [if_pos hself, if_pos (by exact hself)]
    rfl
  · rw [if_neg hself, if_neg (by exact hself)]
    rfl

theorem skipByKey_overlaid (m : Machine) (x : Fin 16) (down : Bool) :
    (overlaid sound stack m).skipByKey x down = carried sound stack (m.skipByKey x down) := by
  rw [skipByKey_eq, skipByKey_eq]
  rfl

theorem draw_overlaid (m : Machine) (x y : Fin 16) (height : Nat) :
    (overlaid sound stack m).draw x y height = carried sound stack (m.draw x y height) := by
  unfold draw
  dsimp only [overlaid, Registers.read, Registers.byte]
  split
  · rfl
  · rfl

theorem execute_overlaid {op : Opcode} (hsound : op ≠ .setSound) (hcall : op ≠ .call)
    (hret : op ≠ .ret) (m : Machine) (word : Int) :
    (overlaid sound stack m).execute op word = carried sound stack (m.execute op word) := by
  cases op with
  | setSound => exact absurd rfl hsound
  | call => exact absurd rfl hcall
  | ret => exact absurd rfl hret
  | jump => exact jump_overlaid sound stack m _
  | clear | skipIfByte | skipUnlessByte | skipIfSame | skipUnlessSame | setIndex | jumpOffset
  | setDelay | addIndex | glyph | decimal | store | load =>
      simp only [execute, read_overlaid, byte_overlaid]
      rfl
  | setByte | addByte | copy | or | and | xor | readDelay =>
      simp only [execute, read_overlaid, byte_overlaid]
      exact setRegister_overlaid sound stack m _ _
  | add | subtract | shiftRight | subtractFrom | shiftLeft =>
      simp only [execute, read_overlaid]
      exact setWithFlag_overlaid sound stack m _ _ fun _ => rfl
  | random =>
      simp only [execute]
      exact setRegister_overlaid sound stack { m with random := m.random.next.2 } _ _
  | skipIfKey | skipUnlessKey => exact skipByKey_overlaid sound stack m _ _
  | draw => exact draw_overlaid sound stack m _ _ _
  | waitKey =>
      have hkeypad : (overlaid sound stack m).keypad = m.keypad := rfl
      simp only [execute, hkeypad]
      cases m.keypad.first? with
      | none => rfl
      | some key => exact setRegister_overlaid sound stack m _ _

end Chip8.Proofs.Overlay
