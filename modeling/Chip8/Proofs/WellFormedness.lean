import Chip8.Proofs.Decoding
import Chip8.Proofs.Reachability
import Chip8.Proofs.Stepping

namespace Chip8.Proofs.WellFormedness

open Chip8.Emulator
open Chip8.Machine
open Chip8.Proofs.Decoding
open Chip8.Proofs.Execution
open Chip8.Proofs.Reachability
open Chip8.Proofs.Stepping

def WordRegisters (m : Machine) : Prop :=
  (0 ≤ m.registers.i ∧ m.registers.i ≤ 0xFFFF) ∧ 0 ≤ m.registers.pc ∧ m.registers.pc ≤ 0xFFFF

theorem wordRegisters_execute {m : Machine} (h : WordRegisters m) (op : Opcode) (word : Int) :
    WordRegisters (m.execute op word).machine := by
  obtain ⟨hi, hpc⟩ := h
  have heffect := effect_execute m op word
  generalize m.execute op word = x at heffect
  cases heffect with
  | skip hop taken =>
      refine ⟨hi, ?_⟩
      simp only [next, Registers.advance]
      omega
  | assign hop v | random hop v | draw hop screen v =>
      refine ⟨hi, ?_⟩
      simp only [setRegisters, withRegisters, Registers.advance]
      omega
  | index hop i hrange =>
      simp only [WordRegisters, setRegisters, withRegisters, Registers.advance]
      omega
  | clear hop | setDelay hop | setSound hop =>
      refine ⟨hi, ?_⟩
      simp only [next, Registers.advance]
      omega
  | write hop data =>
      refine ⟨hi, ?_⟩
      simp only [writeMemory, Registers.advance]
      omega
  | wait hop => exact ⟨hi, hpc⟩
  | jump hop =>
      have htarget := address_lt word
      rw [jump]
      split
      · exact ⟨hi, by simp only; omega⟩
      · exact ⟨hi, by simp only; omega⟩
  | jumpOffset hop =>
      refine ⟨hi, ?_⟩
      simp only
      omega
  | call hop =>
      have htarget := address_lt word
      rcases call_cases m (address word) with ⟨-, hfault⟩ | ⟨_, hcall⟩
      · rw [hfault]
        exact ⟨hi, hpc⟩
      · rw [hcall]
        exact ⟨hi, by simp only; omega⟩
  | ret hop =>
      rcases ret_cases m with ⟨-, hfault⟩ | ⟨k, _, -, hret⟩
      · rw [hfault]
        exact ⟨hi, hpc⟩
      · have hslot := m.registers.stack[k].toNat_lt
        rw [hret]
        exact ⟨hi, by simp only; omega⟩

theorem wordRegisters_initial {m : Machine} (h : m.registers = {}) : WordRegisters m := by
  rw [WordRegisters, h]
  decide

theorem wordRegisters_invariant : Invariant WordRegisters where
  start _ := wordRegisters_initial rfl
  load _ _ := wordRegisters_initial rfl
  keys _ _ h := h
  timers _ _ _ h := h
  latch _ _ h := h
  execute _ op _ _ h := wordRegisters_execute h op _

/-- Every part of a machine is in its range. -/
structure WellFormed (m : Machine) : Prop where
  bytes : ∀ x, 0 ≤ m.registers.read x ∧ m.registers.read x ≤ 0xFF
  index : 0 ≤ m.registers.i ∧ m.registers.i ≤ 0xFFFF
  counter : 0 ≤ m.registers.pc ∧ m.registers.pc ≤ 0xFFFF
  stackPointer : m.registers.sp.val ≤ 16
  stack : m.registers.stack.toList.length = 16 ∧
    ∀ slot ∈ m.registers.stack.toList, slot.toNat ≤ 0xFFFF
  timers : m.delay.value.toNat ≤ 0xFF ∧ m.sound.value.toNat ≤ 0xFF
  memory : m.memory.cells.toList.length = 4096
  screen : m.screen.snapshot.length = 64 * 32 ∧ ∀ cell ∈ m.screen.snapshot, cell = 0 ∨ cell = 1

theorem length_snapshot {width height : Int} (s : Framebuffer width height) :
    s.snapshot.length = (width * height).toNat := by
  rw [Framebuffer.snapshot, List.length_map, Vector.length_toList]

theorem snapshot_bit {width height : Int} (s : Framebuffer width height) :
    ∀ cell ∈ s.snapshot, cell = 0 ∨ cell = 1 := by
  intro cell hcell
  obtain ⟨on, -, rfl⟩ := List.mem_map.mp hcell
  cases on with
  | false => exact .inl rfl
  | true => exact .inr rfl

theorem WordRegisters.wellFormed {m : Machine} (h : WordRegisters m) : WellFormed m where
  bytes x := by
    have hbyte := isByte_read m.registers x
    simp only [IsByte] at hbyte
    omega
  index := h.1
  counter := h.2
  stackPointer := by omega
  stack := by
    refine ⟨Vector.length_toList, fun slot _ => ?_⟩
    have hslot := slot.toNat_lt
    omega
  timers := by
    have hdelay := m.delay.value.toNat_lt
    have hsound := m.sound.value.toNat_lt
    omega
  memory := Vector.length_toList
  screen := ⟨length_snapshot m.screen, snapshot_bit m.screen⟩

/-- No step of an emulator ends in an error but the three of its machine. -/
structure NoInternalError (e : Emulator) : Prop where
  step : ListenersReturn e →
    (∃ reason, e.step.1 = .ok reason) ∨
    (∃ pc word, e.step.1 = .error (.fault (.illegalOpcode pc word))) ∨
    (∃ pc, e.step.1 = .error (.fault (.stackOverflow pc))) ∨
    ∃ pc, e.step.1 = .error (.fault (.stackUnderflow pc))
  /-- No store in a register, no query of a key and no access to the screen or the stack fails
  otherwise. -/
  instruction : ∀ op word err, (e.machine.execute op word).result = .error err →
    ∃ f, StackFault e.machine op f ∧ err = .fault f
  dispatch : ∀ word op, Opcode.lookup word = some op → Opcode.ofKey? op.key = some op
  region : ∀ address, (Region.find? (cell address)).isSome

theorem stackFault_of_execute_error {m : Machine} {op : Opcode} {word : Int} {err : Error}
    (h : (m.execute op word).result = .error err) : ∃ f, StackFault m op f ∧ err = .fault f := by
  rcases execute_result m op word with ⟨f, hf, hfault⟩ | ⟨-, event, hok⟩
  · rw [hfault] at h
    cases h
    exact ⟨f, hf, rfl⟩
  · rw [hok] at h
    cases h

theorem noInternalError (e : Emulator) : NoInternalError e where
  step hreturn := by
    by_cases hstop : e.stopped = true
    · exact .inl ⟨e.stopReason, by rw [Emulator.step, stepWith, if_pos hstop]⟩
    · rcases step_cases (by simpa using hstop) hreturn with ⟨-, hstep⟩ | ⟨op, f, -, hf, hstep⟩ |
        ⟨op, -, -, hok⟩
      · exact .inr (.inl ⟨_, _, by rw [hstep]⟩)
      · cases hf with
        | overflow => exact .inr (.inr (.inl ⟨_, by rw [hstep]⟩))
        | underflow => exact .inr (.inr (.inr ⟨_, by rw [hstep]⟩))
      · exact .inl hok
  instruction _ _ _ := stackFault_of_execute_error
  dispatch _ op _ := ofKey?_key op
  region address := Region.isSome_find? (cell address).isLt

/-- Every reachable state is well-formed, and the next step from it has no internal error. -/
theorem wellFormed_of_reachable {e : Emulator} (h : Reachable e) :
    WellFormed e.machine ∧ NoInternalError e :=
  ⟨(invariant_of_reachable wordRegisters_invariant h).wellFormed, noInternalError e⟩

theorem wellFormed_after_drawing : ∃ e,
    Emulator.new {} (.ofList [0xF9, 0x3E]) = .ok e ∧
      let calls : List HostCall :=
        [.listen .displayUpdated { name := "host", event := .displayUpdated },
          .load [0xC0, 0xFF, 0xC1, 0xFF, 0xD0, 0x1F, 0xE0, 0x9E, 0x12, 0x00] none,
          .keyDown (.int 9), .run 5]
      WellFormed (e.performAll calls).2.machine ∧ NoInternalError (e.performAll calls).2 :=
  ⟨_, rfl, wellFormed_of_reachable (reachable_performAll (@Reachable.new {} _ _ rfl) _)⟩

end Chip8.Proofs.WellFormedness
