import Chip8.Proofs.History
import Chip8.Proofs.LatchedStop
import Chip8.Proofs.TraceAndLog

/-!
A batch that stops at a halt loses nothing. A halted machine jumps to itself, so each further
instruction halts it again where it is and leaves all of it alone; had the batch gone on to its end,
nothing but the trace and the log would be longer.
-/

namespace Chip8.Proofs.HaltedBatches

open Chip8.Emulator
open Chip8.Proofs.History
open Chip8.Proofs.LatchedStop
open Chip8.Proofs.Reachability
open Chip8.Proofs.Stepping
open Chip8.Proofs.TraceAndLog
open Chip8.Proofs.TwoRuns

/-- A machine that is halted jumps to itself. -/
def Resting (m : Machine) : Prop :=
  m.stop = some .halted → Explained m .halted

theorem resting_of_running {m : Machine} (h : m.stop = none) : Resting m := by
  intro hhalted
  rw [h] at hhalted
  cases hhalted

theorem resting_invariant : Invariant Resting where
  start _ := resting_of_running rfl
  load _ _ := resting_of_running rfl
  keys _ _ h hhalted := (h hhalted).congr (by rfl) (by rfl)
  timers _ _ _ h hhalted := (h hhalted).congr (by rfl) (by rfl)
  execute _ _ hrunning hop _ hhalted := Truthful.execute hrunning hop _ hhalted
  latch _ _ _ := nofun

theorem execute_selfJump {m : Machine} {word : Int}
    (hself : (address word : Int) = m.registers.pc) :
    m.execute .jump word =
      { machine := { m with stop := some .halted }, remarks := [.halted (address word)] } := by
  change m.jump (address word) = _
  rw [Machine.jump, if_pos hself.symm]
  simp only [hself]

theorem executeWith_of_selfJump {e : Emulator} (h : Explained e.machine .halted) :
    ∃ trace log, e.executeWith notify = (.ok (), { e with
      machine := { e.machine with stop := some .halted }
      trace
      log }) := by
  cases h with
  | halted hop hself =>
      obtain ⟨trace, log, htraced⟩ := traced_frame e .jump e.nextWord
      have hword : Opcode.lookup e.nextWord = some .jump := hop
      have hexecute : e.machine.execute .jump e.nextWord = _ := execute_selfJump hself
      simp only [executeWith, hword, hexecute, htraced]
      exact ⟨_, _, rfl⟩

structure Halted (e : Emulator) : Prop where
  stop : e.machine.stop = some .halted
  selfJump : Explained e.machine .halted

theorem Halted.beside {e e' : Emulator} (h : Halted e) (hbeside : Beside e e') : Halted e' := by
  obtain ⟨trace, log⟩ := hbeside
  exact ⟨h.stop, h.selfJump⟩

/-- However deep listeners nest in an instruction, a halt that they leave is a jump to itself. -/
theorem halted_of_executeWith {e e' : Emulator} {answer : Except Error Unit}
    (hstop : e.stopped = false) (hexecute : e.executeWith notify = (answer, e'))
    (hhalted : e'.halted = true) : Halted e' := by
  have hrunning := (stopped_eq_false_iff e).mp hstop
  have hresting := invariant_executeWith resting_invariant hstop (resting_of_running hrunning)
  rw [hexecute] at hresting
  have hlatched : e'.machine.stop = some .halted := by simpa [halted] using hhalted
  exact ⟨hlatched, hresting hlatched⟩

theorem Halted.execute {e : Emulator} (h : Halted e) :
    ∃ e', e.executeWith notify = (.ok (), e') ∧ Beside e e' := by
  obtain ⟨trace, log, hexecute⟩ := executeWith_of_selfJump h.selfJump
  refine ⟨_, hexecute, ?_⟩
  rw [← h.stop]
  exact .mk trace log

def resumed (e : Emulator) : Emulator :=
  { e with machine := { e.machine with stop := none } }

/-- The emulator after some more steps, before each of which its stop is cleared. -/
def onward (e : Emulator) : Nat → Emulator
  | 0 => e
  | count + 1 => (resumed (onward e count)).step.2

theorem Halted.step_resumed {e : Emulator} (h : Halted e) :
    (resumed e).step.1 = .ok (some .halt) ∧ Beside e (resumed e).step.2 := by
  have hself : Explained (resumed e).machine .halted := h.selfJump.congr (by rfl) (by rfl)
  obtain ⟨trace, log, hexecute⟩ := executeWith_of_selfJump hself
  have hgoes : (resumed e).stopped = false := rfl
  rw [step, stepWith, hgoes, hexecute]
  refine ⟨rfl, ?_⟩
  change Beside e { e with machine := { e.machine with stop := some .halted }, trace, log }
  rw [← h.stop]
  exact .mk trace log

theorem beside_onward {e : Emulator} (h : Halted e) (count : Nat) :
    Beside e (onward e count) := by
  induction count with
  | zero => exact .refl e
  | succ count ih => exact ih.trans (h.beside ih).step_resumed.2

/-- Executes some instructions, whether the machine stops or not, and counts them onto
`executed`. -/
def throughout (e : Emulator) (executed : Nat) : Nat → Reply Nat
  | 0 => (.ok executed, e)
  | count + 1 =>
    match e.executeWith notify with
    | (.error err, e) => (.error err, e)
    | (.ok (), e) => throughout e (executed + 1) count

theorem throughout_of_halted {e : Emulator} (h : Halted e) (executed count : Nat) :
    ∃ e', throughout e executed count = (.ok (executed + count), e') ∧ Beside e e' := by
  induction count generalizing e executed with
  | zero => exact ⟨e, rfl, .refl e⟩
  | succ count ih =>
      obtain ⟨e', hexecute, hbeside⟩ := h.execute
      obtain ⟨e'', hrest, hbeside'⟩ := ih (h.beside hbeside) (executed + 1)
      rw [throughout, hexecute]
      refine ⟨e'', ?_, hbeside.trans hbeside'⟩
      dsimp only
      rw [hrest, Nat.add_right_comm, Nat.add_assoc]

theorem throughout_of_batch {e e' : Emulator} {executed budget count : Nat}
    (hstop : e.stopped = false) (hbatch : e.batchWith notify executed budget = (.ok count, e'))
    (hhalted : e'.halted = true) :
    ∃ e'', throughout e executed budget = (.ok (executed + budget), e'') ∧ Beside e' e'' := by
  -- By induction on the budget: up to the halt both batches do the same, and from there on the one
  -- that goes on only halts again.
  induction budget generalizing e executed with
  | zero =>
      cases hbatch
      exact ⟨_, rfl, .refl _⟩
  | succ budget ih =>
      rw [batchWith] at hbatch
      rw [throughout]
      cases hexecute : e.executeWith notify with
      | mk answer e₁ =>
          rw [hexecute] at hbatch
          cases answer with
          | error err => cases hbatch
          | ok _ =>
              dsimp only at hbatch ⊢
              have hcount : executed + (budget + 1) = executed + 1 + budget := by omega
              rw [hcount]
              split at hbatch
              · -- A stop that was left with a good answer may be a listener's, but it is a halt.
                cases hbatch
                exact throughout_of_halted (halted_of_executeWith hstop hexecute hhalted) _ _
              · rename_i hnext
                exact ih (by simpa using hnext) hbatch

theorem beside_advanceBy {batch batch' : Emulator → Nat → Reply Nat} {e : Emulator}
    {elapsed : Binary64}
    (h : ∀ cycles, e.stopped = false → e.clock.cyclesDue elapsed = .ok cycles →
      ∃ count count' e₁ e₂, batch e cycles.toNat = (.ok count, e₁) ∧
        batch' e cycles.toNat = (.ok count', e₂) ∧ Beside e₁ e₂) :
    Beside (e.advanceBy notify batch elapsed).2 (e.advanceBy notify batch' elapsed).2 := by
  rw [advanceBy, advanceBy]
  split
  · exact .refl e
  · rename_i hstop
    cases hcycles : e.clock.cyclesDue elapsed with
    | error err => exact .refl e
    | ok cycles =>
        obtain ⟨count, count', e₁, e₂, hbatch, hbatch', hbeside⟩ :=
          h cycles (by simpa using hstop) hcycles
        have hlockstep : Lockstep Beside (fun _ _ _ => True) notify :=
          beside_simulation.lockstep (agree_notifyAt beside_simulation nestingLimit)
        simp only [hbatch, hbatch', ← hlockstep.clock hbeside]
        cases e₁.clock.ticksDue elapsed with
        | error err => exact hbeside
        | ok ticks =>
            have hdecay := hlockstep.decay ticks hbeside
            dsimp only
            generalize e₁.decayWith notify ticks = r₁, e₂.decayWith notify ticks = r₂ at hdecay ⊢
            cases hdecay with
            | ok _ h => exact h
            | error _ h _ => exact h

/-- A halt is a fixed point: each further instruction halts again and leaves all but the trace and
the log. So whatever number of instructions is due, it does not matter that a batch ends at a halt,
neither for what the batch leaves nor for what the timers and their listeners make of it. -/
theorem halt_loses_nothing (e : Emulator) :
    (e.stopped = false → e.step.2.halted = true → ∀ count,
      (resumed (onward e.step.2 count)).step.1 = .ok (some .halt) ∧
        Beside e.step.2 (onward e.step.2 (count + 1))) ∧
    (∀ budget count, e.stopped = false → (e.batchWith notify 0 budget).1 = .ok count →
      (e.batchWith notify 0 budget).2.halted = true →
      (throughout e 0 budget).1 = .ok budget ∧
        Beside (e.batchWith notify 0 budget).2 (throughout e 0 budget).2) ∧
    ∀ elapsed cycles count, e.clock.cyclesDue elapsed = .ok cycles →
      (e.batchWith notify 0 cycles.toNat).1 = .ok count →
      (e.batchWith notify 0 cycles.toNat).2.halted = true →
      Beside (e.advance elapsed).2 (e.advanceBy notify (fun e => throughout e 0) elapsed).2 := by
  have hbatches : ∀ budget count, e.stopped = false → (e.batchWith notify 0 budget).1 = .ok count →
      (e.batchWith notify 0 budget).2.halted = true →
      ∃ e'', throughout e 0 budget = (.ok budget, e'') ∧
        Beside (e.batchWith notify 0 budget).2 e'' := by
    intro budget count hstop hcount hhalted
    obtain ⟨e'', hwhole, hbeside⟩ := throughout_of_batch hstop (Prod.ext hcount rfl) hhalted
    exact ⟨e'', by rw [hwhole, Nat.zero_add], hbeside⟩
  refine ⟨?_, ?_, ?_⟩
  · intro hstop hhalted count
    rw [step_state hstop] at hhalted ⊢
    have hfixed := halted_of_executeWith hstop rfl hhalted
    have hagain := (hfixed.beside (beside_onward hfixed count)).step_resumed
    exact ⟨hagain.1, beside_onward hfixed (count + 1)⟩
  · intro budget count hstop hcount hhalted
    obtain ⟨e'', hwhole, hbeside⟩ := hbatches budget count hstop hcount hhalted
    rw [hwhole]
    exact ⟨rfl, hbeside⟩
  · intro elapsed cycles count hcycles hcount hhalted
    rw [advance, advanceWith]
    apply beside_advanceBy
    intro cycles' hstop hcycles'
    cases hcycles.symm.trans hcycles'
    obtain ⟨e'', hwhole, hbeside⟩ := hbatches _ count hstop hcount hhalted
    exact ⟨count, _, _, e'', Prod.ext hcount rfl, hwhole, hbeside⟩

theorem halt_before_budget : ∃ e,
    Emulator.new { speed := .number 16 } (.ofList [7]) = .ok e ∧
      let started := (e.performAll
        [.listen .soundOff { name := "silence", event := .soundOff },
          .load [0x60, 0x03, 0xF0, 0x18, 0xF0, 0x15, 0x12, 0x06] none]).2
      let jumping := (started.performAll [.run 3]).2
      let half := Binary64.ofDecimal false 5 (-1)
      let left := (started.batchWith notify 0 8).2
      (jumping.stopped = false ∧ jumping.step.2.halted = true) ∧
        (∀ count, (resumed (onward jumping.step.2 count)).step.1 = .ok (some .halt) ∧
          Beside jumping.step.2 (onward jumping.step.2 (count + 1))) ∧
        (started.stopped = false ∧ started.clock.cyclesDue half = .ok 8 ∧
          (started.batchWith notify 0 8).1 = .ok 4 ∧ left.halted = true) ∧
        (throughout started 0 8).1 = .ok 8 ∧ Beside left (throughout started 0 8).2 ∧
        left.machine.sound.value = 3 ∧ (started.advance half).2.machine.sound.value = 0 ∧
        Beside (started.advance half).2
          (started.advanceBy notify (fun e => throughout e 0) half).2 := by
  refine ⟨_, rfl, ?_⟩
  intro started jumping half left
  have hjumping : jumping.stopped = false ∧ jumping.step.2.halted = true := by decide +kernel
  have hstarted : started.stopped = false := by decide +kernel
  have hcycles : started.clock.cyclesDue half = .ok 8 := by decide +kernel
  have hcount : (started.batchWith notify 0 8).1 = .ok 4 := by decide +kernel
  have hhalted : left.halted = true := by decide +kernel
  have hfixed := (halt_loses_nothing jumping).1 hjumping.1 hjumping.2
  obtain ⟨hwhole, hbeside⟩ := (halt_loses_nothing started).2.1 8 4 hstarted hcount hhalted
  have hadvance := (halt_loses_nothing started).2.2 half 8 4 hcycles hcount hhalted
  exact ⟨hjumping, hfixed, ⟨hstarted, hcycles, hcount, hhalted⟩, hwhole, hbeside,
    by decide +kernel, by decide +kernel, hadvance⟩

end Chip8.Proofs.HaltedBatches
