import Chip8.Emulator.Call
import Chip8.Proofs.Stepping

namespace Chip8.Proofs.Faults

open Chip8.Emulator
open Chip8.Proofs.Stepping

/-- The second emulator is the first one stopped by a fault, with a trace and a log of its own. -/
def StoppedBy (f : Fault) (e e' : Emulator) : Prop :=
  e' = { e with
    machine := { e.machine with stop := some (.faulted f) }
    trace := e'.trace
    log := e'.log }

theorem stoppedBy_latch (e : Emulator) (f : Fault) : StoppedBy f e (e.latch f) :=
  rfl

theorem stoppedBy_traced_latch (e : Emulator) (op : Opcode) (word : Nat) (f : Fault) :
    StoppedBy f e ((e.traced op word).latch f) := by
  rw [traced]
  split <;> rfl

theorem StoppedBy.stopReason {f : Fault} {e e' : Emulator} (h : StoppedBy f e e') :
    e'.stopReason = some f.reason := by
  rw [h]
  rfl

theorem StoppedBy.fault {f : Fault} {e e' : Emulator} (h : StoppedBy f e e') :
    e'.fault? = some f := by
  rw [h]
  rfl

/-- When a step fails, and what a step that fails leaves behind. -/
structure StepFaults (e : Emulator) : Prop where
  illegalOpcode : (∃ pc word, e.step.1 = .error (.fault (.illegalOpcode pc word))) ↔
    Opcode.lookup e.nextWord = none
  stackOverflow : (∃ pc, e.step.1 = .error (.fault (.stackOverflow pc))) ↔
    Opcode.lookup e.nextWord = some .call ∧ e.machine.registers.sp = 16
  stackUnderflow : (∃ pc, e.step.1 = .error (.fault (.stackUnderflow pc))) ↔
    Opcode.lookup e.nextWord = some .ret ∧ e.machine.registers.sp = 0
  normal : (∃ reason, e.step.1 = .ok reason) ↔
    ¬ (Opcode.lookup e.nextWord = none ∨
      (Opcode.lookup e.nextWord = some .call ∧ e.machine.registers.sp = 16) ∨
      (Opcode.lookup e.nextWord = some .ret ∧ e.machine.registers.sp = 0))
  /-- Everything but the stop, the trace and the log is as it was, the program counter included. -/
  atomic : ∀ err e', e.step = (.error err, e') →
    ∃ f, err = .fault f ∧ StoppedBy f e e' ∧ e'.stopReason = some f.reason ∧ e'.fault? = some f ∧
      ((Opcode.lookup e.nextWord = none ∧
          f = .illegalOpcode e.machine.registers.pc e.nextWord ∧ f.reason = .illegal) ∨
        (Opcode.lookup e.nextWord ≠ none ∧ f.reason = .stack))

section

variable {e : Emulator} (hstop : e.stopped = false) (hreturn : ListenersReturn e)

include hstop hreturn

theorem step_illegalOpcode_iff :
    (∃ pc word, e.step.1 = .error (.fault (.illegalOpcode pc word))) ↔
      Opcode.lookup e.nextWord = none := by
  rcases step_cases hstop hreturn with ⟨hop, hstep⟩ | ⟨op, f, hop, hf, hstep⟩ |
    ⟨op, hop, -, reason, hstep⟩
  · simp [hop, hstep]
  · cases hf <;> simp [hop, hstep]
  · simp [hop, hstep]

theorem step_stackOverflow_iff :
    (∃ pc, e.step.1 = .error (.fault (.stackOverflow pc))) ↔
      Opcode.lookup e.nextWord = some .call ∧ e.machine.registers.sp = 16 := by
  rcases step_cases hstop hreturn with ⟨hop, hstep⟩ | ⟨op, f, hop, hf, hstep⟩ |
    ⟨op, hop, hfree, reason, hstep⟩
  · simp [hop, hstep]
  · cases hf with
    | overflow hfull => simp [hop, hstep, hfull]
    | underflow hempty => simp [hop, hstep]
  · constructor
    · rintro ⟨pc, herror⟩
      rw [hstep] at herror
      cases herror
    · rintro ⟨hcall, hfull⟩
      rw [hop, Option.some.injEq] at hcall
      subst hcall
      exact absurd (.overflow hfull) (hfree _)

theorem step_stackUnderflow_iff :
    (∃ pc, e.step.1 = .error (.fault (.stackUnderflow pc))) ↔
      Opcode.lookup e.nextWord = some .ret ∧ e.machine.registers.sp = 0 := by
  rcases step_cases hstop hreturn with ⟨hop, hstep⟩ | ⟨op, f, hop, hf, hstep⟩ |
    ⟨op, hop, hfree, reason, hstep⟩
  · simp [hop, hstep]
  · cases hf with
    | overflow hfull => simp [hop, hstep]
    | underflow hempty => simp [hop, hstep, hempty]
  · constructor
    · rintro ⟨pc, herror⟩
      rw [hstep] at herror
      cases herror
    · rintro ⟨hret, hempty⟩
      rw [hop, Option.some.injEq] at hret
      subst hret
      exact absurd (.underflow hempty) (hfree _)

/-- A step that fails stops the machine with the fault it fails with, which tells of the word and
the program counter if no instruction has the word, and of the call stack otherwise. -/
theorem stoppedBy_of_step_error {err : Error} {e' : Emulator} (herror : e.step = (.error err, e')) :
    ∃ f, err = .fault f ∧ StoppedBy f e e' ∧
      ((Opcode.lookup e.nextWord = none ∧
          f = .illegalOpcode e.machine.registers.pc e.nextWord ∧ f.reason = .illegal) ∨
        (Opcode.lookup e.nextWord ≠ none ∧ f.reason = .stack)) := by
  rcases step_cases hstop hreturn with ⟨hop, hstep⟩ | ⟨op, f, hop, hf, hstep⟩ |
    ⟨op, hop, hfree, reason, hstep⟩
  · rw [hstep] at herror
    cases herror
    exact ⟨_, rfl, stoppedBy_latch e _, .inl ⟨hop, rfl, rfl⟩⟩
  · rw [hstep] at herror
    cases herror
    refine ⟨f, rfl, stoppedBy_traced_latch e op _ f, .inr ⟨by rw [hop]; exact nofun, ?_⟩⟩
    cases hf <;> rfl
  · rw [herror] at hstep
    cases hstep

end

/-- A step of an emulator that is not stopped and whose listeners return fails exactly if no
instruction has the word at the program counter, if a call finds the stack full, or if a return
finds it empty, and a step that fails only stops the machine. -/
theorem stepFaults_of_running {e : Emulator} (hstop : e.stopped = false)
    (hreturn : ListenersReturn e) : StepFaults e where
  illegalOpcode := step_illegalOpcode_iff hstop hreturn
  stackOverflow := step_stackOverflow_iff hstop hreturn
  stackUnderflow := step_stackUnderflow_iff hstop hreturn
  normal := by
    rw [← step_illegalOpcode_iff hstop hreturn, ← step_stackOverflow_iff hstop hreturn,
      ← step_stackUnderflow_iff hstop hreturn]
    rcases step_cases hstop hreturn with ⟨-, hstep⟩ | ⟨op, f, -, hf, hstep⟩ |
      ⟨op, -, -, reason, hstep⟩
    · simp [hstep]
    · cases hf <;> simp [hstep]
    · simp [hstep]
  atomic err e' herror := by
    obtain ⟨f, herr, hstopped, hreason⟩ := stoppedBy_of_step_error hstop hreturn herror
    exact ⟨f, herr, hstopped, hstopped.stopReason, hstopped.fault, hreason⟩

/-- An emulator whose next instruction is a call, with a full stack and a listener. -/
def crowded : Emulator where
  machine :=
    { registers := { sp := Fin.last 16 }
      memory := (Memory.initial.loadProgram [0x22, 0x00]).2
      random := .ofList [0] }
  clock := { rate := 840, timerRate := .int 60 }
  strictLoad := false
  tracing := true
  listeners := ({} : Listeners).add .displayUpdated { name := "host", event := .displayUpdated }

theorem stepFaults_crowded :
    crowded.stopped = false ∧ ListenersReturn crowded ∧ StepFaults crowded := by
  have hreturn : ListenersReturn crowded := by
    apply listenersReturn_of_registered
    intro r hr e
    rw [List.mem_singleton.mp hr]
    rfl
  exact ⟨rfl, hreturn, stepFaults_of_running rfl hreturn⟩

end Chip8.Proofs.Faults
