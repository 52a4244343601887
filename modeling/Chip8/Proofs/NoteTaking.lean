import Chip8.Proofs.TwoRuns

namespace Chip8.Proofs.NoteTaking

open Chip8.Emulator
open Chip8.Proofs.Stepping
open Chip8.Proofs.TwoRuns

/-- All registered listeners only take note. -/
def Recording (ls : Listeners) : Prop :=
  ∀ r ∈ ls.registered, r.2.action = .record

theorem recording_of_isEmpty {ls : Listeners} (h : ls.registered.isEmpty = true) :
    Recording ls := by
  intro r hr
  rw [List.isEmpty_iff.mp h] at hr
  exact absurd hr List.not_mem_nil

def notices (e : Emulator) (listeners : List Listener) : Array Notice :=
  (listeners.map fun l => ⟨l.name, l.event, e.machine.registers.pc⟩).toArray

theorem notifyAt_record (depth : Nat) (e : Emulator) {l : Listener} (h : l.action = .record) :
    notifyAt (depth + 1) e l = (.ok (), noted e l) := by
  have hscript : script e l = .done := by rw [script, h, Action.toScript]
  change (noted e l).follow (serve (notifyAt depth)) (script e l) = _
  rw [hscript, follow]

theorem callAll_record (depth : Nat) (e : Emulator) {listeners : List Listener}
    (h : ∀ l ∈ listeners, l.action = .record) :
    e.callAll (notifyAt (depth + 1)) listeners =
      (.ok (), { e with notices := e.notices ++ notices e listeners }) := by
  induction listeners generalizing e with
  | nil => rw [callAll, notices, List.map_nil, Array.append_empty]
  | cons l rest ih =>
      have hrest := ih (noted e l) fun l hl => h l (List.mem_cons_of_mem _ hl)
      rw [callAll, notifyAt_record depth e (h l List.mem_cons_self)]
      dsimp only
      rw [hrest]
      simp [noted, notices]

theorem emit_record {e : Emulator} (h : Recording e.listeners) (event : Event) :
    e.emit notify event =
      (.ok (), { e with notices := e.notices ++ notices e (e.listeners.forEvent event) }) := by
  refine callAll_record 2047 e fun l hl => ?_
  obtain ⟨r, hr, rfl⟩ := List.mem_map.mp hl
  exact h r (List.mem_filter.mp hr).1

/-- The second emulator is the first one but for the machine, the trace and the journal. -/
def Ran (e e' : Emulator) : Prop :=
  e' = { e with
    machine := e'.machine
    trace := e'.trace
    notices := e'.notices
    log := e'.log }

theorem Ran.refl (e : Emulator) : Ran e e :=
  rfl

theorem Ran.trans {e e' e'' : Emulator} (h : Ran e e') (h' : Ran e' e'') : Ran e e'' := by
  rw [Ran, h', h]

theorem Ran.clock {e e' : Emulator} (h : Ran e e') : e'.clock = e.clock := by
  rw [h]

theorem Ran.listeners {e e' : Emulator} (h : Ran e e') : e'.listeners = e.listeners := by
  rw [h]

inductive Ended (e : Emulator) : Reply Unit → Prop
  | running {e' : Emulator} (hran : Ran e e') (hstop : e'.machine.stop = none) :
      Ended e (.ok (), e')
  | halted {e' : Emulator} (hran : Ran e e') (hstop : e'.machine.stop = some .halted) :
      Ended e (.ok (), e')
  | faulted {e' : Emulator} {f : Fault} (hran : Ran e e')
      (hstop : e'.machine.stop = some (.faulted f)) : Ended e (.error (.fault f), e')

theorem ran_silent (e : Emulator) : Ran e (silent e).2 := by
  obtain ⟨machine, trace, log, hsilent⟩ := silent_frame e
  rw [Ran, hsilent]

theorem executeWith_of_silent {e e' : Emulator} (hrecording : Recording e.listeners)
    {event : Option Event} (hsilent : silent e = (.ok event, e')) :
    ∃ e'', e.executeWith notify = (.ok (), e'') ∧ e''.machine = e'.machine ∧ Ran e e'' := by
  have hran := ran_silent e
  rw [hsilent] at hran
  rw [executeWith_eq, hsilent]
  cases event with
  | none => exact ⟨e', rfl, rfl, hran⟩
  | some event =>
      dsimp only
      rw [emit_record (by rwa [hran.listeners])]
      exact ⟨_, rfl, rfl, hran.trans rfl⟩

theorem step_of_silent {e e' : Emulator} {event : Option Event} (hstop : e.stopped = false)
    (hrecording : Recording e.listeners) (hsilent : silent e = (.ok event, e')) :
    ∃ e'', e.step = (.ok e''.stopReason, e'') ∧ e''.machine = e'.machine ∧ Ran e e'' := by
  obtain ⟨e'', hexecute, hmachine, hran⟩ := executeWith_of_silent hrecording hsilent
  refine ⟨e'', ?_, hmachine, hran⟩
  rw [step, stepWith, hstop, hexecute]
  rfl

theorem ended_record {e : Emulator} (hstop : e.stopped = false)
    (hrecording : Recording e.listeners) : Ended e (e.executeWith notify) := by
  have hrunning := (stopped_eq_false_iff e).mp hstop
  have hran := ran_silent e
  have houtcome := outcome_silent e
  generalize hsilent : silent e = reply at hran houtcome
  cases houtcome with
  | illegal hop =>
      rw [executeWith_eq, hsilent]
      exact .faulted hran rfl
  | stackFault hop hf =>
      rw [executeWith_eq, hsilent]
      exact .faulted hran rfl
  | @done op event hop hfree hresult =>
      obtain ⟨e', hexecute, hmachine, hran⟩ := executeWith_of_silent hrecording hsilent
      rw [hexecute]
      rcases execute_stop hrunning op e.nextWord with hnone | ⟨-, -, hhalted⟩
      · exact .running hran (by rw [hmachine]; exact hnone)
      · exact .halted hran (by rw [hmachine]; exact congrArg Machine.stop hhalted)

end Chip8.Proofs.NoteTaking
