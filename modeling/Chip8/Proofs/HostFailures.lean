import Chip8.Proofs.Stopped
import Chip8.Proofs.Unheard

namespace Chip8.Proofs.HostFailures

open Chip8.Emulator
open Chip8.Proofs.NoteTaking
open Chip8.Proofs.Stepping
open Chip8.Proofs.Stopped
open Chip8.Proofs.TwoRuns
open Chip8.Proofs.Unheard

/-- A listener that asks for nothing and fails, whatever it finds. -/
def Fails (l : Listener) (err : Error) : Prop :=
  ∀ notices m, l.action.toScript l.event notices m = .fail err

/-- All registrations but those of one listener for one event only take note. -/
def OthersRecord (ls : Listeners) (event : Event) (l : Listener) : Prop :=
  ∀ r ∈ ls.registered, r = (event, l) ∨ r.2.action = .record

def stepWithout (e : Emulator) (event : Event) (l : Listener) : Reply (Option StopReason) :=
  (e.step.2.removeListener event (some l.name)).step

/-- A step that raises an error of a listener, and is otherwise what it is unheard. -/
structure Harmless (e : Emulator) (event : Event) (l : Listener) (err : Error) : Prop where
  raised : e.step.1 = .error err
  committed : e.step.2.machine = (quietly step e).2.machine
  running : e.step.2.stopReason = none ∧ e.step.2.fault? = none
  resumed : (stepWithout e event l).1 = (quietly step (quietly step e).2).1 ∧
    (stepWithout e event l).2.machine = (quietly step (quietly step e).2).2.machine

/-- A step that raises a fault of a listener, and stops the machine with it. -/
structure Blamed (e : Emulator) (event : Event) (l : Listener) (f : Fault) : Prop where
  raised : e.step.1 = .error (.fault f)
  latched : e.step.2.machine = { (quietly step e).2.machine with stop := some (.faulted f) }
  frozen : (stepWithout e event l).1 = .ok (some f.reason) ∧
    (stepWithout e event l).2.machine = e.step.2.machine

section

variable {l : Listener} {err : Error} (hfails : Fails l err)

include hfails

theorem notify_of_fails (e : Emulator) : notify e l = (.error err, noted e l) := by
  have hscript : script e l = .fail err := hfails e.notices e.machine
  change (noted e l).follow (serve (notifyAt 2047)) (script e l) = _
  rw [hscript, follow]

theorem callAll_of_fails (e : Emulator) {listeners : List Listener} (hl : l ∈ listeners)
    (hothers : ∀ k ∈ listeners, k = l ∨ k.action = .record) :
    ∃ notices, e.callAll notify listeners = (.error err, { e with notices }) := by
  induction listeners generalizing e with
  | nil => cases hl
  | cons k rest ih =>
      rw [callAll]
      rcases hothers k List.mem_cons_self with rfl | hrecord
      · rw [notify_of_fails hfails]
        exact ⟨_, rfl⟩
      · rcases List.mem_cons.mp hl with rfl | hrest
        · rw [notify_of_fails hfails]
          exact ⟨_, rfl⟩
        · obtain ⟨ns, hcall⟩ := ih (noted e k) hrest
            fun k hk => hothers k (List.mem_cons_of_mem _ hk)
          have hnoted : notify e k = (.ok (), noted e k) := notifyAt_record 2047 e hrecord
          rw [hnoted]
          exact ⟨ns, hcall⟩

theorem emit_of_fails {e : Emulator} {event : Event} (hl : (event, l) ∈ e.listeners.registered)
    (hothers : OthersRecord e.listeners event l) :
    ∃ notices, e.emit notify event = (.error err, { e with notices }) := by
  apply callAll_of_fails hfails
  · refine List.mem_map.mpr ⟨(event, l), List.mem_filter.mpr ⟨hl, ?_⟩, rfl⟩
    exact decide_eq_true rfl
  · intro k hk
    obtain ⟨r, hr, rfl⟩ := List.mem_map.mp hk
    rcases hothers r (List.mem_filter.mp hr).1 with rfl | hrecord
    · exact .inl rfl
    · exact .inr hrecord

end

theorem recording_removed {ls : Listeners} {event : Event} {l : Listener}
    (hothers : OthersRecord ls event l) : Recording (ls.remove event (some l.name)) := by
  intro r hr
  obtain ⟨hmem, hkept⟩ := List.mem_filter.mp hr
  rcases hothers r hmem with rfl | hrecord
  · simp at hkept
  · exact hrecord

section

variable {e : Emulator} {event : Event} {l : Listener} {err : Error} (hstop : e.stopped = false)
  (hreports : Reports e event) (hl : (event, l) ∈ e.listeners.registered)
  (hfails : Fails l err) (hothers : OthersRecord e.listeners event l)

include hstop hreports hl hfails hothers

theorem step_of_fails : ∃ e' notices, quietly step e = (.ok none, e') ∧ e'.machine.stop = none ∧
    e'.listeners = e.listeners ∧ e.step.1 = .error err ∧
      e.step.2 = (settle (.error err, { e' with notices })).2 := by
  obtain ⟨e', hsilent⟩ := silent_of_reports hreports
  have hrunning := stop_of_reports ((stopped_eq_false_iff e).mp hstop) hreports hsilent
  have hlisteners := listeners_silent e
  rw [hsilent] at hlisteners
  rw [← hlisteners] at hl hothers
  obtain ⟨ns, hemit⟩ := emit_of_fails hfails hl hothers
  have hquiet := quietly_step_of_ok hstop hsilent
  rw [stopReason_of_running hrunning] at hquiet
  have hexecute : e.executeWith notify = settle (.error err, { e' with notices := ns }) := by
    rw [executeWith_eq, hsilent]
    dsimp only
    rw [hemit]
  refine ⟨e', ns, hquiet, hrunning, hlisteners, ?_⟩
  rw [step, stepWith, hstop, hexecute]
  cases err with
  | fault f => exact ⟨rfl, rfl⟩
  | _ => exact ⟨rfl, rfl⟩

theorem harmless_of_notFault (herr : NotFault err) : Harmless e event l err := by
  obtain ⟨e', ns, hquiet, hrunning, hlisteners, hraised, hstate⟩ :=
    step_of_fails hstop hreports hl hfails hothers
  have hsettle : settle (.error err, { e' with notices := ns }) =
      (.error err, { e' with notices := ns }) := by
    cases err with
    | fault f => exact absurd rfl (herr f)
    | _ => rfl
  rw [hsettle] at hstate
  constructor
  case raised => exact hraised
  case committed => rw [hstate, hquiet]
  case running =>
    rw [hstate]
    exact ⟨stopReason_of_running hrunning, fault?_of_running hrunning⟩
  case resumed =>
    -- The listeners that are left take note, and so the next step is what it is unheard.
    have hrecording : Recording (e'.listeners.remove event (some l.name)) := by
      rw [hlisteners]
      exact recording_removed hothers
    obtain ⟨ns', hlater⟩ := attended_step
      (e := { e' with notices := ns }.removeListener event (some l.name))
      (attending_of_recording hrecording) 2047 notify
    have hstep : stepWithout e event l =
        ({ e' with notices := ns }.removeListener event (some l.name)).stepWith
          (notifyAt (2047 + 1)) := by
      rw [stepWithout, hstate]
      rfl
    rw [hstep, hlater, hquiet]
    exact ⟨rfl, rfl⟩

theorem blamed_of_fault {f : Fault} (herr : err = .fault f) : Blamed e event l f := by
  obtain ⟨e', ns, hquiet, hrunning, hlisteners, hraised, hstate⟩ :=
    step_of_fails hstop hreports hl hfails hothers
  subst herr
  have hstopped : (e.step.2.removeListener event (some l.name)).stopReason = some f.reason := by
    rw [hstate]
    rfl
  have hlater := stepWith_stopped notify hstopped
  constructor
  case raised => exact hraised
  case latched =>
    rw [hstate, hquiet]
    rfl
  case frozen =>
    rw [stepWithout, step, hlater]
    exact ⟨rfl, rfl⟩

/-- A listener's failure is raised by the step that calls it and does no harm if it is no fault; if
it is a fault, the machine takes the blame. -/
theorem harmless_iff_notFault :
    (Harmless e event l err ↔ NotFault err) ∧ ∀ f, err = .fault f → Blamed e event l f := by
  refine ⟨⟨?_, harmless_of_notFault hstop hreports hl hfails hothers⟩, fun f hf => ?_⟩
  · rintro hharmless f rfl
    have hlatched := (blamed_of_fault hstop hreports hl hfails hothers rfl).latched
    have hrunning := hharmless.running.2
    rw [fault?, hlatched] at hrunning
    cases hrunning
  · exact blamed_of_fault hstop hreports hl hfails hothers hf

end

theorem harmless_redraw : ∃ e,
    Emulator.new {} (.ofList [7]) = .ok e ∧
      let broken : Listener :=
        { name := "redraw", event := .displayUpdated, action := .fail .listenerFailed }
      let drawing := (e.performAll
        [.listen .displayUpdated { name := "host", event := .displayUpdated },
          .listen .displayUpdated broken, .load [0xD0, 0x05, 0x12, 0x02] none]).2
      drawing.stopped = false ∧ Reports drawing .displayUpdated ∧
        (.displayUpdated, broken) ∈ drawing.listeners.registered ∧
        Fails broken .listenerFailed ∧ OthersRecord drawing.listeners .displayUpdated broken ∧
        (stepWithout drawing .displayUpdated broken).1 = .ok (some .halt) ∧
        Harmless drawing .displayUpdated broken .listenerFailed := by
  refine ⟨_, rfl, ?_⟩
  intro broken drawing
  have hstop : drawing.stopped = false := by decide +kernel
  have hreports : Reports drawing .displayUpdated := .drawn (by decide +kernel)
  have hl : (.displayUpdated, broken) ∈ drawing.listeners.registered :=
    List.mem_cons_of_mem _ List.mem_cons_self
  have hfails : Fails broken .listenerFailed := fun _ _ => rfl
  have hothers : OthersRecord drawing.listeners .displayUpdated broken := by
    intro r hr
    rcases List.mem_cons.mp hr with rfl | hr
    · exact .inr rfl
    · exact .inl (List.mem_singleton.mp hr)
  have hharmless := (harmless_iff_notFault hstop hreports hl hfails hothers).1.mpr nofun
  exact ⟨hstop, hreports, hl, hfails, hothers, by decide +kernel, hharmless⟩

/-- A listener raises an illegal opcode of another machine. The machine that drew for it stops, with
its program counter past the sprite and a fault that tells of an address it never was at. -/
theorem blamed_for_foreign_opcode : ∃ e,
    Emulator.new {} (.ofList [7]) = .ok e ∧
      let f := Fault.illegalOpcode 0x123 0xABCD
      let broken : Listener :=
        { name := "x", event := .displayUpdated, action := .fail (.fault f) }
      let drawing := (e.performAll
        [.listen .displayUpdated broken, .load [0xD0, 0x01, 0x12, 0x02] none]).2
      drawing.stopped = false ∧ Reports drawing .displayUpdated ∧ Fails broken (.fault f) ∧
        drawing.listeners.registered = [(.displayUpdated, broken)] ∧
        drawing.step.2.machine.registers.pc = 0x202 ∧ drawing.step.2.fault? = some f ∧
        (stepWithout drawing .displayUpdated broken).1 = .ok (some .illegal) ∧
        ¬ Harmless drawing .displayUpdated broken (.fault f) := by
  refine ⟨_, rfl, ?_⟩
  intro f broken drawing
  have hfault : drawing.step.2.fault? = some f := by decide +kernel
  refine ⟨by decide +kernel, .drawn (by decide +kernel), fun _ _ => rfl, rfl, by decide +kernel,
    hfault, by decide +kernel, ?_⟩
  intro hharmless
  exact absurd (hfault.symm.trans hharmless.running.2) nofun

end Chip8.Proofs.HostFailures
