import Chip8.Proofs.Batches
import Chip8.Proofs.Overlay
import Chip8.Proofs.Stopped

namespace Chip8.Proofs.Observers

open Chip8.Emulator
open Chip8.Machine
open Chip8.Proofs.Batches
open Chip8.Proofs.NoteTaking
open Chip8.Proofs.Overlay
open Chip8.Proofs.Stepping
open Chip8.Proofs.Stopped
open Chip8.Proofs.TwoRuns

/-- Two emulators that agree on the clock and on all of the machine but the sound timer. -/
structure Agreeing (e₁ e₂ : Emulator) : Prop where
  registers : e₁.machine.registers = e₂.machine.registers
  memory : e₁.machine.memory = e₂.machine.memory
  screen : e₁.machine.screen = e₂.machine.screen
  keypad : e₁.machine.keypad = e₂.machine.keypad
  delay : e₁.machine.delay = e₂.machine.delay
  random : e₁.machine.random = e₂.machine.random
  stop : e₁.machine.stop = e₂.machine.stop
  clock : e₁.clock = e₂.clock

def resounded (sound : Countdown) (m : Machine) : Machine :=
  overlaid (fun _ => sound) id m

theorem agreeing_of_resounded {e₁ e₂ : Emulator} {sound : Countdown}
    (hmachine : e₂.machine = resounded sound e₁.machine) (hclock : e₁.clock = e₂.clock) :
    Agreeing e₁ e₂ := by
  constructor
  case clock => exact hclock
  all_goals rw [hmachine]; rfl

theorem Agreeing.resounded {e₁ e₂ : Emulator} (h : Agreeing e₁ e₂) :
    e₂.machine = resounded e₂.machine.sound e₁.machine := by
  rw [Observers.resounded, overlaid, h.registers, h.memory, h.screen, h.keypad, h.delay, h.random,
    h.stop]
  rfl

theorem call_resounded (sound : Countdown) (m : Machine) (target : Nat) :
    (resounded sound m).call target = carried (fun _ => sound) id (m.call target) := by
  unfold Machine.call Registers.push
  by_cases hfree : m.registers.sp.val < 16
  · rw [dif_pos hfree, dif_pos (by exact hfree)]
    rfl
  · rw [dif_neg hfree, dif_neg (by exact hfree)]
    rfl

theorem ret_resounded (sound : Countdown) (m : Machine) :
    (resounded sound m).ret = carried (fun _ => sound) id m.ret := by
  obtain ⟨⟨v, i, pc, sp, stack⟩, memory, screen, keypad, delay, st, random, stop⟩ := m
  obtain ⟨_ | k, hk⟩ := sp
  · rfl
  · rfl

theorem execute_resounded (sound : Countdown) (m : Machine) (op : Opcode) (word : Int) :
    ∃ sound', (resounded sound m).execute op word =
      carried (fun _ => sound') id (m.execute op word) := by
  by_cases hsound : op = .setSound
  · subst hsound
    refine ⟨.set (m.registers.read (regX word)), ?_⟩
    simp only [execute, resounded, read_overlaid]
    rfl
  · refine ⟨sound, ?_⟩
    by_cases hcall : op = .call
    · subst hcall
      exact call_resounded sound m _
    · by_cases hret : op = .ret
      · subst hret
        exact ret_resounded sound m
      · exact execute_overlaid _ _ hsound hcall hret m word

theorem Agreeing.latch {e₁ e₂ : Emulator} (h : Agreeing e₁ e₂) (f : Fault) :
    Agreeing (e₁.latch f) (e₂.latch f) :=
  ⟨h.registers, h.memory, h.screen, h.keypad, h.delay, h.random, rfl, h.clock⟩

theorem Agreeing.traced {e₁ e₂ : Emulator} (h : Agreeing e₁ e₂) (op : Opcode) (word : Nat) :
    (e₁.traced op word).clock = (e₂.traced op word).clock := by
  obtain ⟨trace₁, log₁, htraced₁⟩ := traced_frame e₁ op word
  obtain ⟨trace₂, log₂, htraced₂⟩ := traced_frame e₂ op word
  rw [htraced₁, htraced₂]
  exact h.clock

theorem agreeing_silent {e₁ e₂ : Emulator} (h : Agreeing e₁ e₂) :
    (silent e₁).1 = (silent e₂).1 ∧ Agreeing (silent e₁).2 (silent e₂).2 := by
  have hword : e₂.nextWord = e₁.nextWord := by rw [nextWord, nextWord, h.registers, h.memory]
  have hcounter : e₂.machine.registers.pc = e₁.machine.registers.pc := by rw [h.registers]
  simp only [silent, hword, hcounter]
  cases Opcode.lookup e₁.nextWord with
  | none => exact ⟨rfl, h.latch _⟩
  | some op =>
      obtain ⟨sound, hexecute⟩ := execute_resounded e₂.machine.sound e₁.machine op e₁.nextWord
      rw [← h.resounded] at hexecute
      have hresult : (e₂.machine.execute op e₁.nextWord).result =
          (e₁.machine.execute op e₁.nextWord).result := by
        rw [hexecute]
        rfl
      have hcommitted : Agreeing
          ((e₁.traced op e₁.nextWord).commit (e₁.machine.execute op e₁.nextWord))
          ((e₂.traced op e₁.nextWord).commit (e₂.machine.execute op e₁.nextWord)) := by
        rw [hexecute]
        exact agreeing_of_resounded rfl (h.traced op _)
      dsimp only
      rw [hresult]
      split
      · exact ⟨rfl, hcommitted.latch _⟩
      · exact ⟨rfl, hcommitted⟩

structure Observed (e₁ e₂ : Emulator) : Prop where
  agreeing : Agreeing e₁ e₂
  recording₁ : Recording e₁.listeners
  recording₂ : Recording e₂.listeners

theorem Observed.silent {e₁ e₂ : Emulator} (h : Observed e₁ e₂) :
    Agree Observed (fun _ _ _ => True) (silent e₁) (silent e₂) := by
  obtain ⟨hanswer, hagreeing⟩ := agreeing_silent h.agreeing
  refine agree_of_answers hanswer ⟨hagreeing, ?_, ?_⟩
  · rw [listeners_silent]
    exact h.recording₁
  · rw [listeners_silent]
    exact h.recording₂

theorem Observed.emit {e₁ e₂ : Emulator} (h : Observed e₁ e₂) (event : Event) :
    Agree Observed (fun _ _ _ => True) (settle (e₁.emit notify event))
      (settle (e₂.emit notify event)) := by
  obtain ⟨hagreeing, hrecording₁, hrecording₂⟩ := h
  rw [emit_record hrecording₁, emit_record hrecording₂]
  exact .ok () ⟨{ hagreeing with }, hrecording₁, hrecording₂⟩

theorem Observed.execute {e₁ e₂ : Emulator} (h : Observed e₁ e₂) :
    Agree Observed (fun _ _ _ => True) (e₁.executeWith notify) (e₂.executeWith notify) := by
  have hsilent := h.silent
  rw [executeWith_eq, executeWith_eq]
  generalize Stepping.silent e₁ = r₁, Stepping.silent e₂ = r₂ at hsilent ⊢
  cases hsilent with
  | error err h hfault => exact .error err h hfault
  | ok event h =>
      cases event with
      | none => exact .ok () h
      | some event => exact h.emit event

theorem Observed.decay {e₁ e₂ : Emulator} (h : Observed e₁ e₂) (ticks : Int) :
    Agree Observed (fun _ _ _ => True) (e₁.decayWith notify ticks)
      (e₂.decayWith notify ticks) := by
  obtain ⟨hagreeing, hrecording₁, hrecording₂⟩ := h
  rw [decay_record hrecording₁, decay_record hrecording₂, hagreeing.delay]
  obtain ⟨notices₁, hretimed₁⟩ := retimed_frame e₁ (e₂.machine.delay.decay ticks).2
    (e₁.machine.sound.decay ticks).2
  obtain ⟨notices₂, hretimed₂⟩ := retimed_frame e₂ (e₂.machine.delay.decay ticks).2
    (e₂.machine.sound.decay ticks).2
  -- The end of a sound may be noted by one emulator only.
  rw [hretimed₁, hretimed₂]
  exact .ok () ⟨{ hagreeing with delay := rfl }, hrecording₁, hrecording₂⟩

theorem lockstep_observed : Lockstep Observed (fun _ _ _ => True) notify where
  stop h := h.agreeing.stop
  clock h := h.agreeing.clock
  execute h _ := h.execute
  decay ticks h := h.decay ticks
  retime _ h := ⟨{ h.agreeing with clock := rfl }, h.recording₁, h.recording₂⟩

theorem Observed.onKeypad {e₁ e₂ : Emulator} (h : Observed e₁ e₂)
    (call : Keypad → Except Error Unit × Keypad) :
    Agree Observed (fun _ _ _ => True) (e₁.onKeypad call) (e₂.onKeypad call) := by
  rw [Emulator.onKeypad, Emulator.onKeypad, h.agreeing.keypad]
  exact agree_of_answers rfl ⟨{ h.agreeing with keypad := rfl }, h.recording₁, h.recording₂⟩

theorem Observed.perform {e₁ e₂ : Emulator} (h : Observed e₁ e₂) {c : HostCall}
    (hc : Ordinary c) : Agree Observed (fun _ _ _ => True) (e₁.perform c) (e₂.perform c) := by
  cases c with
  | listen event l => exact hc.elim
  | request r =>
      cases r with
      | step => exact (agree_stepWith lockstep_observed h).map _
      | run maxSteps => exact (agree_runWith lockstep_observed h _).map _
      | advance elapsed => exact (agree_advanceWith lockstep_observed h elapsed).map _
      | tick now => exact (agree_tickWith lockstep_observed h now).map _
      | keyDown key | keyUp key => exact (h.onKeypad _).map _
      | load _ _ | reset | listen _ _ | unlisten _ _ => exact hc.elim

/-- Emulators that differ in the sound timer and in what observes them give equal answers to calls
that execute or press keys, and agree afterwards on all else. -/
theorem agreeing_performAll {e₁ e₂ : Emulator} (h : Agreeing e₁ e₂)
    (hrecording₁ : Recording e₁.listeners) (hrecording₂ : Recording e₂.listeners)
    {calls : List HostCall} (hcalls : ∀ c ∈ calls, Ordinary c) :
    (e₁.performAll calls).1 = (e₂.performAll calls).1 ∧
      Agreeing (e₁.performAll calls).2 (e₂.performAll calls).2 := by
  have hobserved : Observed e₁ e₂ := ⟨h, hrecording₁, hrecording₂⟩
  obtain ⟨hanswers, hend⟩ :=
    agree_calls (fun c hc _ _ h => Observed.perform h (hcalls c hc)) hobserved
  exact ⟨hanswers, hend.agreeing⟩

theorem agreeing_after_underflow : ∃ e,
    Emulator.new { speed := .number 16 } (.ofList [7]) = .ok e ∧
      let plain := (e.performAll
        [.load [0xD0, 0x15, 0x60, 0x03, 0xF0, 0x15, 0xF2, 0x0A, 0xF0, 0x18, 0x00, 0xEE] none]).2
      let watched := { plain with
        machine := { plain.machine with sound := .set 9 }
        tracing := true
        listeners := (plain.listeners.add .displayUpdated
          { name := "screen", event := .displayUpdated }).add .soundOff
          { name := "silence", event := .soundOff } }
      let quarter := Binary64.ofDecimal false 25 (-2)
      let calls : List HostCall :=
        [.step, .advance quarter, .keyDown (.int 16), .keyDown (.int 5), .run 9, .step,
          .tick .zero]
      Agreeing plain watched ∧ Recording plain.listeners ∧ Recording watched.listeners ∧
        (∀ c ∈ calls, Ordinary c) ∧
        (plain.performAll calls).2.notices.size = 0 ∧
        (watched.performAll calls).2.notices.size = 2 ∧
        (plain.performAll calls).1 = (watched.performAll calls).1 ∧
        Agreeing (plain.performAll calls).2 (watched.performAll calls).2 := by
  refine ⟨_, rfl, ?_⟩
  intro plain watched quarter calls
  have hagreeing : Agreeing plain watched := ⟨rfl, rfl, rfl, rfl, rfl, rfl, rfl, rfl⟩
  have hplain : Recording plain.listeners := fun r hr => absurd hr List.not_mem_nil
  have hwatched : Recording watched.listeners := by
    intro r hr
    rcases List.mem_cons.mp hr with rfl | hr
    · rfl
    · cases List.mem_singleton.mp hr
      rfl
  have hcalls : ∀ c ∈ calls, Ordinary c := by
    simp only [calls, List.forall_mem_cons]
    exact ⟨trivial, trivial, trivial, trivial, trivial, trivial, trivial, nofun⟩
  exact ⟨hagreeing, hplain, hwatched, hcalls, by decide +kernel, by decide +kernel,
    agreeing_performAll hagreeing hplain hwatched hcalls⟩

end Chip8.Proofs.Observers
