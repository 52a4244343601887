import Chip8.Proofs.Loading

namespace Chip8.Proofs.TraceAndLog

open Chip8.Emulator
open Chip8.Proofs.Loading
open Chip8.Proofs.Stepping
open Chip8.Proofs.TwoRuns

/-- The second emulator is the first one but for the trace and the log. -/
inductive Beside (e : Emulator) : Emulator → Prop
  | mk (trace : Trace) (log : Array Record) : Beside e { e with trace, log }

theorem Beside.refl (e : Emulator) : Beside e e :=
  .mk e.trace e.log

section

variable {e₁ e₂ e₃ : Emulator} (h : Beside e₁ e₂)

include h

theorem Beside.trans (h' : Beside e₂ e₃) : Beside e₁ e₃ := by
  obtain ⟨trace, log⟩ := h
  obtain ⟨trace', log'⟩ := h'
  exact .mk trace' log'

theorem Beside.machine : e₂.machine = e₁.machine := by
  obtain ⟨trace, log⟩ := h
  rfl

theorem Beside.latch (f : Fault) : Beside (e₁.latch f) (e₂.latch f) := by
  obtain ⟨trace, log⟩ := h
  exact .mk _ _

theorem Beside.traced (op : Opcode) (word : Nat) :
    Beside (e₁.traced op word) (e₂.traced op word) := by
  obtain ⟨trace, log⟩ := h
  rw [Emulator.traced, Emulator.traced]
  split
  · exact .mk _ _
  · exact .mk _ _

theorem Beside.commit (x : Execution) : Beside (e₁.commit x) (e₂.commit x) := by
  obtain ⟨trace, log⟩ := h
  exact .mk _ _

theorem beside_silent : (silent e₁).1 = (silent e₂).1 ∧ Beside (silent e₁).2 (silent e₂).2 := by
  have hword : e₂.nextWord = e₁.nextWord := by
    rw [nextWord, nextWord, h.machine]
  simp only [silent, hword, h.machine]
  cases Opcode.lookup e₁.nextWord with
  | none => exact ⟨rfl, h.latch _⟩
  | some op =>
      have hcommitted :=
        (h.traced op e₁.nextWord).commit (e₁.machine.execute op e₁.nextWord)
      dsimp only
      split
      · exact ⟨rfl, hcommitted.latch _⟩
      · exact ⟨rfl, hcommitted⟩

theorem Beside.warned (program : List UInt8) :
    Beside (Emulator.warned e₁ program) (Emulator.warned e₂ program) := by
  obtain ⟨trace, log⟩ := h
  rw [Emulator.warned, Emulator.warned]
  split
  · exact .mk _ _
  · exact .mk _ _

theorem Beside.loaded (program : List UInt8) (clock : Clock) :
    Beside (Loading.loaded e₁ program clock) (Loading.loaded e₂ program clock) := by
  obtain ⟨log₁, hloaded₁⟩ := loaded_eq e₁ program clock
  obtain ⟨log₂, hloaded₂⟩ := loaded_eq e₂ program clock
  rw [hloaded₁, hloaded₂]
  obtain ⟨trace, log⟩ := h
  exact .mk _ _

theorem beside_load (program : List UInt8) (speed : Option SpeedRequest) :
    (e₁.load program speed).1 = (e₂.load program speed).1 ∧
      Beside (e₁.load program speed).2 (e₂.load program speed).2 := by
  have hclock : e₂.clockFor speed = e₁.clockFor speed := by
    obtain ⟨trace, log⟩ := h
    cases speed <;> rfl
  have hstrict : e₂.strictLoad = e₁.strictLoad := by
    obtain ⟨trace, log⟩ := h
    rfl
  rw [load_eq, load_eq, hclock, hstrict]
  split
  · exact ⟨rfl, h⟩
  · split
    · exact ⟨rfl, h.warned program⟩
    · exact ⟨rfl, h.loaded program _⟩

end

theorem beside_simulation : Simulation Beside (fun _ _ _ => True) (fun _ => True) where
  stop h := by rw [h.machine]
  clock := by
    rintro _ _ ⟨trace, log⟩
    rfl
  listeners := by
    rintro _ _ ⟨trace, log⟩
    rfl
  allListeners _ := ⟨fun _ _ => trivial, fun _ _ => trivial⟩
  silent h _ := agree_of_answers (beside_silent h).1 (beside_silent h).2
  latch h _ := ⟨h.latch _, trivial⟩
  countDown := by
    rintro _ _ ticks ⟨trace, log⟩
    exact ⟨rfl, .mk _ _⟩
  retime := by
    rintro _ _ clock ⟨trace, log⟩
    exact .mk _ _
  load program speed h := by
    obtain ⟨hanswer, hbeside⟩ := beside_load h program speed
    exact agree_of_answers hanswer hbeside
  reset := by
    rintro _ _ ⟨trace, log⟩
    exact .mk _ _
  keys := by
    rintro _ _ value f ⟨trace, log⟩
    exact agree_of_answers rfl (.mk _ _)
  listen := by
    rintro _ _ event l - ⟨trace, log⟩
    exact .mk _ _
  unlisten := by
    rintro _ _ event name ⟨trace, log⟩
    exact .mk _ _
  recording _ _ := trivial
  noted := by
    rintro _ _ l - ⟨trace, log⟩
    exact .mk _ _
  script := by
    rintro e _ l - ⟨trace, log⟩
    exact (raisesOnly_any _).matched (fun _ _ _ _ _ => trivial) fun _ _ h => h.machine.symm

end Chip8.Proofs.TraceAndLog
