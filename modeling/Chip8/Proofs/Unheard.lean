import Chip8.Proofs.Notifications

namespace Chip8.Proofs.Unheard

open Chip8.Emulator
open Chip8.Machine
open Chip8.Proofs.Batches
open Chip8.Proofs.Execution
open Chip8.Proofs.History
open Chip8.Proofs.NoteTaking
open Chip8.Proofs.Notifications
open Chip8.Proofs.Stepping
open Chip8.Proofs.TwoRuns

/-- The emulator without listeners, and with nothing noted. -/
def unheard (e : Emulator) : Emulator :=
  { e with listeners := {}, notices := #[] }

/-- An emulator with the listeners of another one, and with what was noted there. -/
def rejoined (e e' : Emulator) : Emulator :=
  { e' with listeners := e.listeners, notices := e.notices }

/-- A call that no listener hears of. -/
def quietly {α : Type} (call : Emulator → Reply α) (e : Emulator) : Reply α :=
  ((call (unheard e)).1, rejoined e (call (unheard e)).2)

theorem traced_unheard (e : Emulator) (op : Opcode) (word : Nat) :
    (unheard e).traced op word = unheard (e.traced op word) := by
  rw [traced, traced]
  split
  · rename_i htracing
    rw [if_pos (by exact htracing)]
    rfl
  · rename_i hquiet
    rw [if_neg (by exact hquiet)]

theorem silent_unheard (e : Emulator) :
    silent (unheard e) = ((silent e).1, unheard (silent e).2) := by
  have hword : (unheard e).nextWord = e.nextWord := rfl
  have hmachine : (unheard e).machine = e.machine := rfl
  simp only [silent, hword, hmachine, traced_unheard]
  cases Opcode.lookup e.nextWord with
  | none => rfl
  | some op =>
      dsimp only
      split
      · rfl
      · rfl

theorem rejoined_silent (e : Emulator) : rejoined e (unheard (silent e).2) = (silent e).2 := by
  obtain ⟨machine, trace, log, hframe⟩ := silent_frame e
  rw [hframe]
  rfl

section

variable {notify : Emulator → Listener → Reply Unit} {e e' : Emulator}

theorem executeWith_unheard_of_error {err : Error} (h : silent e = (.error err, e')) :
    (unheard e).executeWith notify = (.error err, unheard e') := by
  rw [executeWith_eq, silent_unheard, h]

theorem executeWith_unheard_of_ok {event : Option Event} (h : silent e = (.ok event, e')) :
    (unheard e).executeWith notify = (.ok (), unheard e') := by
  rw [executeWith_eq, silent_unheard, h]
  cases event with
  | none => rfl
  | some event => rfl

theorem quietly_step_of_ok (hstop : e.stopped = false) {event : Option Event}
    (h : silent e = (.ok event, e')) : quietly step e = (.ok e'.stopReason, e') := by
  have hgoes : (unheard e).stopped = false := hstop
  have hstep : (unheard e).step = (.ok e'.stopReason, unheard e') := by
    rw [step, stepWith, hgoes, executeWith_unheard_of_ok h]
    rfl
  have hjoined := rejoined_silent e
  rw [h] at hjoined
  rw [quietly, hstep, hjoined]

end

theorem event_ne_soundOff {e e' : Emulator} {event : Event} (h : silent e = (.ok (some event), e')) :
    event ≠ .soundOff := by
  have hannounced := announced_instruction e
  rw [Happening.announced, h] at hannounced
  intro hevent
  subst hevent
  obtain ⟨op, -, hevent⟩ := Option.bind_eq_some_iff.mp hannounced.symm
  cases op <;> simp [eventOf] at hevent

inductive Reports (e : Emulator) : Event → Prop
  | drawn (hop : Opcode.lookup e.nextWord = some .draw) : Reports e .displayUpdated
  | sounding (hop : Opcode.lookup e.nextWord = some .setSound)
      (hvalue : 0 < e.machine.registers.read (regX e.nextWord)) : Reports e .soundOn

theorem silent_of_reports {e : Emulator} {event : Event} (h : Reports e event) :
    ∃ e', silent e = (.ok (some event), e') := by
  cases h with
  | drawn hop =>
      obtain ⟨screen, flag, hdraw⟩ :=
        draw_eq e.machine (regX e.nextWord) (regY e.nextWord) (lowNibble e.nextWord)
      have hexecute : (e.machine.execute .draw e.nextWord).result =
          .ok (some .displayUpdated) := by
        simp only [execute, hdraw]
      simp only [silent, hop, hexecute]
      exact ⟨_, rfl⟩
  | sounding hop hvalue =>
      have hexecute : (e.machine.execute .setSound e.nextWord).result = .ok (some .soundOn) := by
        simp only [execute, if_pos hvalue]
      simp only [silent, hop, hexecute]
      exact ⟨_, rfl⟩

theorem stop_of_reports {e e' : Emulator} {event : Event} (hrunning : e.machine.stop = none)
    (h : Reports e event) {answer : Except Error (Option Event)} (hsilent : silent e = (answer, e')) :
    e'.machine.stop = none := by
  obtain ⟨op, hop, hjump⟩ : ∃ op, Opcode.lookup e.nextWord = some op ∧ op ≠ .jump := by
    cases h with
    | drawn hop => exact ⟨_, hop, nofun⟩
    | sounding hop hvalue => exact ⟨_, hop, nofun⟩
  obtain ⟨e'', hreported⟩ := silent_of_reports h
  rcases silent_cases hop with ⟨f, -, hfault⟩ | ⟨-, event', hdone⟩
  · cases hreported.symm.trans hfault
  · cases hsilent.symm.trans hdone
    rcases execute_stop hrunning op e.nextWord with hnone | ⟨hself, -⟩
    · exact hnone
    · exact absurd hself hjump

/-- Listeners that execution calls only take note. -/
def Attending (ls : Listeners) : Prop :=
  ∀ event, event ≠ .soundOff → ∀ l ∈ ls.forEvent event, l.action = .record

theorem attending_of_recording {ls : Listeners} (h : Recording ls) : Attending ls := by
  intro event _ l hl
  obtain ⟨r, hr, rfl⟩ := List.mem_map.mp hl
  exact h r (List.mem_filter.mp hr).1

/-- The reply is the other one but for the listeners, which are given, and what they noted. -/
def Attended {α : Type} (ls : Listeners) (r r' : Reply α) : Prop :=
  ∃ notices, r = (r'.1, { r'.2 with listeners := ls, notices })

theorem attended_execute {e : Emulator} (h : Attending e.listeners) (depth : Nat)
    (notify : Emulator → Listener → Reply Unit) :
    Attended e.listeners (e.executeWith (notifyAt (depth + 1)))
      ((unheard e).executeWith notify) := by
  have hjoined := rejoined_silent e
  have hlisteners := listeners_silent e
  rcases hsilent : silent e with ⟨err | _ | event, e'⟩
  · rw [hsilent] at hjoined
    rw [executeWith_unheard_of_error hsilent, executeWith_eq, hsilent]
    exact ⟨e.notices, congrArg _ hjoined.symm⟩
  · rw [hsilent] at hjoined
    rw [executeWith_unheard_of_ok hsilent, executeWith_eq, hsilent]
    exact ⟨e.notices, congrArg _ hjoined.symm⟩
  · rw [hsilent] at hlisteners
    have hrecord := h event (event_ne_soundOff hsilent)
    rw [executeWith_unheard_of_ok hsilent, executeWith_eq, hsilent, ← hlisteners]
    rw [← hlisteners] at hrecord
    dsimp only
    rw [emit, callAll_record depth e' hrecord]
    exact ⟨_, rfl⟩

theorem unheard_executeWith (e : Emulator) (notify : Emulator → Listener → Reply Unit) :
    unheard ((unheard e).executeWith notify).2 = ((unheard e).executeWith notify).2 := by
  rcases hsilent : silent e with ⟨err | event, e'⟩
  · rw [executeWith_unheard_of_error hsilent]
    rfl
  · rw [executeWith_unheard_of_ok hsilent]
    rfl

theorem attended_step {e : Emulator} (h : Attending e.listeners) (depth : Nat)
    (notify : Emulator → Listener → Reply Unit) :
    Attended e.listeners (e.stepWith (notifyAt (depth + 1))) ((unheard e).stepWith notify) := by
  obtain ⟨ns, hexecute⟩ := attended_execute h depth notify
  rw [stepWith, stepWith]
  split
  · rename_i hstop
    rw [if_pos (by exact hstop)]
    exact ⟨e.notices, rfl⟩
  · rename_i hstop
    rw [if_neg (by exact hstop), hexecute]
    obtain ⟨_ | _, e'⟩ := (unheard e).executeWith notify
    · exact ⟨ns, rfl⟩
    · exact ⟨ns, rfl⟩

theorem attended_batch {e : Emulator} (h : Attending e.listeners) (depth : Nat)
    (notify : Emulator → Listener → Reply Unit) (executed count : Nat) :
    Attended e.listeners (e.batchWith (notifyAt (depth + 1)) executed count)
      ((unheard e).batchWith notify executed count) := by
  induction count generalizing e executed with
  | zero => exact ⟨e.notices, rfl⟩
  | succ count ih =>
      obtain ⟨ns, hexecute⟩ := attended_execute h depth notify
      have hsame := unheard_executeWith e notify
      rw [batchWith, batchWith, hexecute]
      generalize (unheard e).executeWith notify = reply at hsame ⊢
      obtain ⟨_ | _, e'⟩ := reply
      · exact ⟨ns, rfl⟩
      · dsimp only at hsame ⊢
        split
        · rename_i hstop
          rw [if_pos (by exact hstop)]
          exact ⟨ns, rfl⟩
        · rename_i hstop
          rw [if_neg (by exact hstop)]
          have hrest := @ih { e' with listeners := e.listeners, notices := ns } h (executed + 1)
          rwa [show unheard { e' with listeners := e.listeners, notices := ns } = e' from hsame]
            at hrest

theorem quietly_advance_of_batch {e e' : Emulator} (hstop : e.stopped = false)
    {elapsed : Binary64} {cycles ticks : Int} (hcycles : e.clock.cyclesDue elapsed = .ok cycles)
    (hticks : e.clock.ticksDue elapsed = .ok ticks) {count : Nat}
    (hbatch : (unheard e).batchWith notify 0 cycles.toNat = (.ok count, e')) :
    e'.clock = e.clock ∧
      quietly (advance · elapsed) e = (.ok count, rejoined e (countDown e' ticks)) := by
  have hgoes : (unheard e).stopped = false := hstop
  have hnobody : Recording (unheard e).listeners := fun r hr => absurd hr List.not_mem_nil
  have htogether := run_batch hgoes hnobody 0 cycles.toNat
  have hran : Ran (unheard e) e' := by
    rw [hbatch] at htogether
    generalize (unheard e).runWith notify cycles.toNat = run, stepped _ _ = e'' at htogether
    cases htogether with
    | timeout hran _ => exact hran
    | halt hran _ => exact hran
  refine ⟨hran.clock, ?_⟩
  obtain ⟨ns, hretimed⟩ := retimed_frame e' (e'.machine.delay.decay ticks).2
    (e'.machine.sound.decay ticks).2
  have hquiet := advance_of_batch hgoes hnobody hcycles hticks hran hbatch
  rw [quietly, hquiet, hretimed]
  rfl

end Chip8.Proofs.Unheard
