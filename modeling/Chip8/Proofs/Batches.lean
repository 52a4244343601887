import Chip8.Proofs.NoteTaking

namespace Chip8.Proofs.Batches

open Chip8.Emulator
open Chip8.Proofs.NoteTaking
open Chip8.Proofs.Stepping
open Chip8.Proofs.TwoRuns

/-- The number of instructions that some steps execute. A step of a stopped machine executes
none. -/
def executed (e : Emulator) : Nat → Nat
  | 0 => 0
  | count + 1 => if e.stopped then 0 else executed e.step.2 count + 1

def stepped (e : Emulator) : Nat → Emulator
  | 0 => e
  | count + 1 => stepped e.step.2 count

theorem executed_of_stopped {e : Emulator} (h : e.stopped = true) (count : Nat) :
    executed e count = 0 := by
  cases count with
  | zero => rfl
  | succ count => rw [executed, if_pos h]

inductive EndTogether (e e' : Emulator) (count : Nat) :
    Reply (Option StopReason) → Reply Nat → Prop
  | timeout (hran : Ran e e') (hstop : e'.machine.stop = none) :
      EndTogether e e' count (.ok (some .timeout), e') (.ok count, e')
  | halt (hran : Ran e e') (hstop : e'.machine.stop = some .halted) :
      EndTogether e e' count (.ok (some .halt), e') (.ok count, e')
  | fault {f : Fault} (hran : Ran e e') (hstop : e'.machine.stop = some (.faulted f)) :
      EndTogether e e' count (.ok (some f.reason), e') (.error (.fault f), e')

theorem EndTogether.trans {e e' e'' : Emulator} (h : Ran e e') {count : Nat}
    {run : Reply (Option StopReason)} {batch : Reply Nat}
    (h' : EndTogether e' e'' count run batch) : EndTogether e e'' count run batch := by
  cases h' with
  | timeout hran hstop => exact .timeout (h.trans hran) hstop
  | halt hran hstop => exact .halt (h.trans hran) hstop
  | fault hran hstop => exact .fault (h.trans hran) hstop

theorem run_batch {e : Emulator} (hstop : e.stopped = false) (hrecording : Recording e.listeners)
    (before count : Nat) :
    EndTogether e (stepped e (executed e count)) (before + executed e count)
      (e.runWith notify count) (e.batchWith notify before count) := by
  -- By induction on the steps, each of which is one instruction. A batch and a run look at the
  -- stop of the machine in different places, but neither goes on when there is one.
  induction count generalizing e before with
  | zero => exact .timeout (.refl e) ((stopped_eq_false_iff e).mp hstop)
  | succ count ih =>
      have hended := ended_record hstop hrecording
      have hsteps : executed e (count + 1) = executed e.step.2 count + 1 := by
        rw [executed, hstop]
        rfl
      rw [hsteps, stepped, step, runWith, batchWith, stepWith, hstop]
      generalize e.executeWith notify = reply at hended ⊢
      cases hended with
      | @running e' hran hnext =>
          have hreason : e'.stopReason = none := stopReason_of_running hnext
          have hgoes := (stopped_eq_false_iff e').mpr hnext
          have hrest := ih hgoes (by rwa [hran.listeners]) (before + 1)
          rw [Nat.add_right_comm, Nat.add_assoc] at hrest
          simp only [hreason, hgoes, Bool.false_eq_true, if_false]
          exact hrest.trans hran
      | @halted e' hran hhalted =>
          have hreason : e'.stopReason = some .halt := stopReason_of_stop hhalted
          have hends : e'.stopped = true := stopped_of_stop hhalted
          simp only [hreason, hends, executed_of_stopped hends, Bool.false_eq_true, if_false,
            if_true]
          exact .halt hran hhalted
      | @faulted e' f hran hfaulted =>
          have hreason : e'.stopReason = some f.reason := stopReason_of_stop hfaulted
          have hends : e'.stopped = true := stopped_of_stop hfaulted
          simp only [hreason, executed_of_stopped hends, Error.isOfMachine, Bool.false_eq_true,
            if_false, if_true]
          exact .fault hran hfaulted

/-- The emulator with other timers, whose end of sound is noted if there is one. -/
def retimed (e : Emulator) (delay sound : Countdown) : Emulator :=
  let counted := { e with machine := { e.machine with delay, sound } }
  if e.machine.sound.value ≠ 0 ∧ sound.value = 0 then
    { counted with
      notices := e.notices ++ notices e (e.listeners.forEvent .soundOff) }
  else counted

theorem retimed_frame (e : Emulator) (delay sound : Countdown) :
    ∃ notices, retimed e delay sound =
      { e with machine := { e.machine with delay, sound }, notices } := by
  rw [retimed]
  split
  · exact ⟨_, rfl⟩
  · exact ⟨_, rfl⟩

theorem decay_record {e : Emulator} (hrecording : Recording e.listeners) (ticks : Int) :
    e.decayWith notify ticks =
      (.ok (), retimed e (e.machine.delay.decay ticks).2 (e.machine.sound.decay ticks).2) := by
  have hcounted := @emit_record (countDown e ticks) hrecording .soundOff
  rw [decayWith, retimed]
  by_cases hended : (e.machine.sound.decay ticks).1 = true
  · rw [if_pos hended, if_pos ((Countdown.decay_ended_iff _ _).mp hended), hcounted]
    rfl
  · rw [if_neg hended, if_neg fun h => hended ((Countdown.decay_ended_iff _ _).mpr h)]
    rfl

/-- What advancing does is what a run of the due instructions does, followed by the timers. What is
left of a timer is given by a function of its value and the ticks. -/
structure Refines (left : Int → Int → Int) (e : Emulator) (elapsed : Binary64)
    (cycles ticks : Int) : Prop where
  ends : ∃ reason, e.run cycles = (.ok (some reason), stepped e (executed e cycles.toNat))
  decayed : (e.run cycles).1 = .ok (some .timeout) ∨ (e.run cycles).1 = .ok (some .halt) →
    ∃ delay sound,
      (delay.value.toNat : Int) = left (e.run cycles).2.machine.delay.value.toNat ticks ∧
        (sound.value.toNat : Int) = left (e.run cycles).2.machine.sound.value.toNat ticks ∧
        e.advance elapsed = (.ok (executed e cycles.toNat), retimed (e.run cycles).2 delay sound)
  faulted : (e.run cycles).1 = .ok (some .illegal) ∨ (e.run cycles).1 = .ok (some .stack) →
    ∃ f, (e.run cycles).2.fault? = some f ∧
      e.advance elapsed = (.error (.fault f), (e.run cycles).2)

theorem advance_of_batch {e e' : Emulator} (hstop : e.stopped = false)
    (hrecording : Recording e.listeners) {elapsed : Binary64} {cycles ticks : Int}
    (hcycles : e.clock.cyclesDue elapsed = .ok cycles)
    (hticks : e.clock.ticksDue elapsed = .ok ticks) {count : Nat} (hran : Ran e e')
    (hbatch : e.batchWith notify 0 cycles.toNat = (.ok count, e')) :
    e.advance elapsed = (.ok count,
      retimed e' (e'.machine.delay.decay ticks).2 (e'.machine.sound.decay ticks).2) := by
  have hkept : Recording e'.listeners := by rwa [hran.listeners]
  have hticks' : e'.clock.ticksDue elapsed = .ok ticks := by rwa [hran.clock]
  rw [advance, advanceWith, advanceBy, hstop, hcycles]
  simp only [hbatch, hticks', decay_record hkept, Bool.false_eq_true, if_false]

theorem refines_of_decay {e e' : Emulator} {elapsed : Binary64} {cycles ticks : Int}
    (hend : stepped e (executed e cycles.toNat) = e') {reason : StopReason}
    (hreason : reason = .timeout ∨ reason = .halt)
    (hrun : e.run cycles = (.ok (some reason), e'))
    (hadvance : e.advance elapsed = (.ok (executed e cycles.toNat),
      retimed e' (e'.machine.delay.decay ticks).2 (e'.machine.sound.decay ticks).2)) :
    Refines (fun value ticks => max 0 (value - max 0 ticks)) e elapsed cycles ticks := by
  constructor
  case ends => exact ⟨reason, by rw [hrun, hend]⟩
  case decayed =>
    intro _
    rw [hrun]
    exact ⟨_, _, Countdown.value_decay _ _, Countdown.value_decay _ _, hadvance⟩
  case faulted =>
    rw [hrun]
    rcases hreason with rfl | rfl
    · rintro (h | h) <;> cases h
    · rintro (h | h) <;> cases h

theorem refines_of_fault {left : Int → Int → Int} {e e' : Emulator} {elapsed : Binary64}
    {cycles ticks : Int} (hend : stepped e (executed e cycles.toNat) = e') {f : Fault}
    (hfault : e'.fault? = some f) (hrun : e.run cycles = (.ok (some f.reason), e'))
    (hadvance : e.advance elapsed = (.error (.fault f), e')) :
    Refines left e elapsed cycles ticks := by
  constructor
  case ends => exact ⟨f.reason, by rw [hrun, hend]⟩
  case decayed =>
    rw [hrun]
    cases f <;> rintro (h | h) <;> cases h
  case faulted =>
    intro _
    rw [hrun]
    exact ⟨f, hfault, hadvance⟩

/-- Advancing refines single steps wherever both the due instructions and the ticks are numbers. -/
theorem refines_of_recording {e : Emulator} (hstop : e.stopReason = none)
    (hrecording : Recording e.listeners) {elapsed : Binary64} {cycles ticks : Int}
    (hcycles : e.clock.cyclesDue elapsed = .ok cycles)
    (hticks : e.clock.ticksDue elapsed = .ok ticks) :
    Refines (fun value ticks => max 0 (value - max 0 ticks)) e elapsed cycles ticks := by
  have hgoes : e.stopped = false := by
    rw [stopReason, Option.map_eq_none_iff] at hstop
    exact (stopped_eq_false_iff e).mpr hstop
  have htogether := run_batch hgoes hrecording 0 cycles.toNat
  rw [Nat.zero_add] at htogether
  generalize hend : stepped e (executed e cycles.toNat) = e',
    hrun : e.runWith notify cycles.toNat = run,
    hbatch : e.batchWith notify 0 cycles.toNat = batch at htogether
  cases htogether with
  | timeout hran hnext =>
      have hadvance := advance_of_batch hgoes hrecording hcycles hticks hran hbatch
      exact refines_of_decay hend (.inl rfl) hrun hadvance
  | halt hran hhalted =>
      have hadvance := advance_of_batch hgoes hrecording hcycles hticks hran hbatch
      exact refines_of_decay hend (.inr rfl) hrun hadvance
  | @fault f hran hfaulted =>
      have hfault : e'.fault? = some f := by
        rw [fault?, hfaulted]
        rfl
      refine refines_of_fault hend hfault hrun ?_
      rw [advance, advanceWith, advanceBy, hgoes, hcycles]
      simp only [hbatch, Bool.false_eq_true, if_false]

theorem refines_past_sound : ∃ e,
    Emulator.new { speed := .number 16 } (.ofList [7]) = .ok e ∧
      let loaded := (e.performAll
        [.listen .soundOff { name := "silence", event := .soundOff },
          .load [0x60, 0x03, 0xF0, 0x18, 0xF0, 0x15, 0x12, 0x06] none]).2
      let quarter := Binary64.ofDecimal false 25 (-2)
      loaded.stopReason = none ∧ Recording loaded.listeners ∧
        loaded.clock.cyclesDue quarter = .ok 4 ∧ loaded.clock.ticksDue quarter = .ok 15 ∧
        Refines (fun value ticks => max 0 (value - max 0 ticks)) loaded quarter 4 15 := by
  refine ⟨_, rfl, ?_⟩
  intro loaded quarter
  have hstop : loaded.stopReason = none := by decide +kernel
  have hrecording : Recording loaded.listeners := by
    rintro r hr
    cases List.mem_singleton.mp hr
    rfl
  have hcycles : loaded.clock.cyclesDue quarter = .ok 4 := by decide +kernel
  have hticks : loaded.clock.ticksDue quarter = .ok 15 := by decide +kernel
  exact ⟨hstop, hrecording, hcycles, hticks, refines_of_recording hstop hrecording hcycles hticks⟩

/-- A timer whose rate is negative is not counted up: it keeps ten after minus thirty ticks. -/
theorem not_refines_backward : ∃ e,
    Emulator.new { timerRate := .int (-60) } (.ofList [7]) = .ok e ∧
      let counting := (e.performAll
        [.load [0x60, 0x0A, 0xF0, 0x15, 0x12, 0x04] none, .step, .step]).2
      let half := Binary64.ofDecimal false 5 (-1)
      counting.stopReason = none ∧ Recording counting.listeners ∧
        counting.clock.cyclesDue half = .ok 420 ∧ counting.clock.ticksDue half = .ok (-30) ∧
        ¬ Refines (fun value ticks => max 0 (value - ticks)) counting half 420 (-30) := by
  refine ⟨_, rfl, ?_⟩
  intro counting half
  refine ⟨by decide +kernel, ?_, by decide +kernel, by decide +kernel, ?_⟩
  · have hnone : counting.listeners.registered.isEmpty = true := by decide +kernel
    intro r hr
    rw [List.isEmpty_iff.mp hnone] at hr
    exact absurd hr List.not_mem_nil
  · intro hrefines
    have hhalt : (counting.run 420).1 = .ok (some .halt) := by decide +kernel
    obtain ⟨delay, sound, hdelay, -, hadvance⟩ := hrefines.decayed (.inr hhalt)
    have hkept : (counting.advance half).2.machine.delay = delay := by
      rw [hadvance, retimed]
      split <;> rfl
    rw [← hkept] at hdelay
    revert hdelay
    decide +kernel

end Chip8.Proofs.Batches
