import Chip8.Proofs.Nesting
import Chip8.Proofs.Journals
import Chip8.Proofs.Unheard

/-!
Notifications come last. When the next instruction reports an event, or a countdown the end of a
sound, to a listener that makes one request, the call ends as if nobody had been notified and the
host had made the request afterwards; a fault in the request is latched by both.
-/

namespace Chip8.Proofs.Reentry

open Chip8.Emulator
open Chip8.Proofs.Batches
open Chip8.Proofs.Journals
open Chip8.Proofs.Loading
open Chip8.Proofs.Nesting
open Chip8.Proofs.NoteTaking
open Chip8.Proofs.Stepping
open Chip8.Proofs.TwoRuns
open Chip8.Proofs.Unheard

/-- A listener that makes one request, whatever it finds. -/
def Asks (l : Listener) (r : Request) : Prop :=
  ∀ notices m, l.action.toScript l.event notices m = .once r

/-- Some instructions are due that leave a sound, and ticks that end it. -/
def EndsSound (e : Emulator) (elapsed : Binary64) : Prop :=
  ∃ cycles ticks count e', e.clock.cyclesDue elapsed = .ok cycles ∧
    e.clock.ticksDue elapsed = .ok ticks ∧
    (unheard e).batchWith notify 0 cycles.toNat = (.ok count, e') ∧
    e'.machine.sound.value ≠ 0 ∧ (e'.machine.sound.decay ticks).2.value = 0

/-- Equal answers of emulators that differ in nothing but what was noted and logged. -/
def EndsAlike {α : Type} (r r' : Reply α) : Prop :=
  r.1 = r'.1 ∧ blank r.2 = blank r'.2

/-- The answer to a request in other terms: its error, or a value of the emulator then. -/
def afterwards {α : Type} (value : Emulator → α) (reply : Reply Answer) : Reply α :=
  (reply.1.map fun _ => value reply.2, reply.2)

/-- A call in which a listener makes a request ends as the request does that the host makes of an
emulator, however deep calls may nest. The request of a listener is itself a nested call. -/
structure ActsLast {α : Type} (call : (Emulator → Listener → Reply Unit) → Reply α)
    (value : Emulator → α) (e : Emulator) (r : Request) : Prop where
  nested : ∀ depth, EndsAlike (call (notifyAt (depth + 1)))
    (afterwards value (e.serve (notifyAt depth) r))
  whole : (r = .step → (call notify).1 ≠ .error .nestingTooDeep) →
    EndsAlike (call notify) (afterwards value (e.perform (.request r)))

theorem blank_latch {e : Emulator} {f : Fault} (h : e.machine.stop = some (.faulted f)) :
    blank (e.latch f) = blank e := by
  rw [latch, note, ← h]
  rfl

theorem error_of_map {α β : Type} {g : α → β} {reply : Reply α} {err : Error} {e : Emulator}
    (h : Reply.map g reply = (.error err, e)) : reply = (.error err, e) := by
  obtain ⟨err | answer, e'⟩ := reply
  · cases h
    rfl
  · cases h

theorem stop_of_serve_fault {notify : Emulator → Listener → Reply Unit} {e e' : Emulator}
    {r : Request} (hr : Brief r) {f : Fault} (h : e.serve notify r = (.error (.fault f), e')) :
    e'.machine.stop = some (.faulted f) := by
  cases r with
  | step => exact stop_of_stepWith_fault (error_of_map h)
  | load program speed =>
      have hfault := error_of_map h
      rcases load_cases e program speed with ⟨err, log, herr, hload⟩ | ⟨clock, -, hload⟩
      · rw [hload] at hfault
        cases hfault
        exact absurd rfl (herr f)
      · rw [hload] at hfault
        cases hfault
  | keyDown key | keyUp key =>
      exact absurd rfl (notFault_change (congrArg Prod.fst (error_of_map h)) f)
  | reset | listen _ _ | unlisten _ _ => cases h
  | run _ | advance _ | tick _ => exact hr.elim

section

variable {l : Listener} {r : Request} (hasks : Asks l r)

include hasks

theorem notifyAt_of_asks (depth : Nat) (e : Emulator) :
    notifyAt (depth + 1) e l = Reply.map (fun _ => ()) ((noted e l).serve (notifyAt depth) r) := by
  have hscript : script e l = .once r := hasks e.notices e.machine
  change (noted e l).follow (serve (notifyAt depth)) (script e l) = _
  rw [hscript, Script.once, follow]
  obtain ⟨_ | _, e'⟩ := (noted e l).serve (notifyAt depth) r
  · rfl
  · rfl

theorem alike_of_asks (depth : Nat) {e e' : Emulator} (h : blank e = blank e')
    (hplain : AllListeners Plain e.listeners) :
    EndsAlike (notifyAt (depth + 1) e l)
      (afterwards (fun _ => ()) (e'.serve (notifyAt depth) r)) := by
  have happart : Apart (journal (noted e l)) (journal e') (noted e l) e' := by
    refine apart_of_blank h ⟨fun l hl => ?_, fun r hr => ?_⟩
    · exact fun _ m => (hplain.known l hl).blind _ _ m
    · exact fun _ m => (hplain.registered r hr).blind _ _ m
  have hserve := agree_serve apart_simulation (agree_notifyAt apart_simulation depth) happart r
  rw [notifyAt_of_asks hasks]
  generalize (noted e l).serve (notifyAt depth) r = r₁, e'.serve (notifyAt depth) r = r₂
    at hserve ⊢
  cases hserve with
  | ok answer h =>
      cases h
      exact ⟨rfl, rfl⟩
  | error err h _ =>
      cases h
      exact ⟨rfl, rfl⟩

theorem stop_of_notifyAt_fault (hr : Brief r) {depth : Nat} {e e' : Emulator} {f : Fault}
    (h : notifyAt (depth + 1) e l = (.error (.fault f), e')) :
    e'.machine.stop = some (.faulted f) := by
  rw [notifyAt_of_asks hasks] at h
  rcases hserve : (noted e l).serve (notifyAt depth) r with ⟨err | answer, e''⟩
  · rw [hserve] at h
    cases h
    exact stop_of_serve_fault hr hserve
  · rw [hserve] at h
    cases h

end

theorem emit_of_forEvent {e : Emulator} {event : Event} {l : Listener}
    (h : e.listeners.forEvent event = [l]) (notify : Emulator → Listener → Reply Unit) :
    e.emit notify event = notify e l := by
  rw [emit, h, callAll]
  obtain ⟨_ | _, e'⟩ := notify e l
  · rfl
  · rfl

theorem serve_of_ne_step {r : Request} (hr : Brief r) (hstep : r ≠ .step) (e : Emulator)
    (notify notify' : Emulator → Listener → Reply Unit) : e.serve notify r = e.serve notify' r := by
  cases r with
  | step => exact absurd rfl hstep
  | run _ | advance _ | tick _ => exact hr.elim
  | _ => rfl

/-- At the limit of nesting, the listener's request has room for one nested call less than the
host's. -/
theorem actsLast_of_nested {α : Type} {call : (Emulator → Listener → Reply Unit) → Reply α}
    {value : Emulator → α} {e : Emulator} {r : Request} (hr : Brief r)
    (hplain : AllListeners Plain e.listeners)
    (hnested : ∀ depth, EndsAlike (call (notifyAt (depth + 1)))
      (afterwards value (e.serve (notifyAt depth) r))) : ActsLast call value e r := by
  refine ⟨hnested, ?_⟩
  intro hroom
  have hlimit : EndsAlike (call notify) (afterwards value (e.serve (notifyAt 2047) r)) :=
    hnested 2047
  suffices hserve : e.serve (notifyAt 2047) r = e.serve notify r by rwa [hserve] at hlimit
  by_cases hstep : r = .step
  · have hroomier : Roomier (e.serve (notifyAt 2047) r) (e.serve (notifyAt (2047 + 1)) r) :=
      roomier_serve (roomier_notifyAt 2047) hplain hr
    apply hroomier.eq
    intro hdeep
    apply hroom hstep
    rw [hlimit.1, afterwards, hdeep]
    rfl
  · exact serve_of_ne_step hr hstep e _ _

section

variable {e : Emulator} {l : Listener} {r : Request} (hstop : e.stopped = false)
  (hasks : Asks l r) (hr : Brief r) (hplain : AllListeners Plain e.listeners)

include hstop hasks hr hplain

theorem actsLast_step {event : Event} (hreports : Reports e event)
    (hsingle : e.listeners.forEvent event = [l]) :
    ActsLast (fun notify => e.stepWith notify) stopReason (quietly step e).2 r := by
  obtain ⟨e', hsilent⟩ := silent_of_reports hreports
  have hlisteners := listeners_silent e
  rw [hsilent] at hlisteners
  rw [quietly_step_of_ok hstop hsilent]
  rw [← hlisteners] at hsingle hplain
  apply actsLast_of_nested hr hplain
  intro depth
  have halike := alike_of_asks hasks depth (rfl : blank e' = blank e') hplain
  have hfault := @stop_of_notifyAt_fault l r hasks hr depth e'
  rw [stepWith, hstop, executeWith_eq, hsilent]
  simp only [emit_of_forEvent hsingle, Bool.false_eq_true, if_false]
  generalize notifyAt (depth + 1) e' l = reply, e'.serve (notifyAt depth) r = act
    at halike hfault ⊢
  obtain ⟨⟨answer, e₁⟩, ⟨answer', e₂⟩⟩ := reply, act
  obtain ⟨hanswer, hblank⟩ := halike
  cases answer' with
  | error err =>
      cases hanswer
      -- The instruction latches a fault once more that the request has latched already.
      cases err with
      | fault f => exact ⟨rfl, (blank_latch (hfault rfl)).trans hblank⟩
      | _ => exact ⟨rfl, hblank⟩
  | ok answer =>
      cases hanswer
      have hmachine := congrArg Emulator.machine hblank
      change e₁.machine = e₂.machine at hmachine
      refine ⟨?_, hblank⟩
      change Except.ok e₁.stopReason = Except.ok e₂.stopReason
      rw [stopReason, stopReason, hmachine]

theorem actsLast_advance (hattending : Attending e.listeners)
    (hsingle : e.listeners.forEvent .soundOff = [l]) {elapsed : Binary64}
    (hends : EndsSound e elapsed) :
    ∃ count, (quietly (advance · elapsed) e).1 = .ok count ∧
      ActsLast (fun notify => e.advanceWith notify elapsed) (fun _ => count)
        (quietly (advance · elapsed) e).2 r := by
  obtain ⟨cycles, ticks, count, e', hcycles, hticks, hbatch, hsound, hended⟩ := hends
  obtain ⟨hclock, hquiet⟩ := quietly_advance_of_batch hstop hcycles hticks hbatch
  rw [hquiet]
  refine ⟨count, rfl, actsLast_of_nested hr (e := rejoined e (countDown e' ticks)) hplain ?_⟩
  intro depth
  obtain ⟨ns, hheard⟩ := attended_batch hattending depth notify 0 cycles.toNat
  rw [hbatch] at hheard
  -- The batch in which listeners took note, and then the timers.
  have halike := @alike_of_asks l r hasks depth
    (countDown { e' with listeners := e.listeners, notices := ns } ticks)
    (rejoined e (countDown e' ticks)) rfl hplain
  have hdecay : ({ e' with listeners := e.listeners, notices := ns } : Emulator).decayWith
      (notifyAt (depth + 1)) ticks = notifyAt (depth + 1)
        (countDown { e' with listeners := e.listeners, notices := ns } ticks) l := by
    rw [decayWith, if_pos ((Countdown.decay_ended_iff _ _).mpr ⟨hsound, hended⟩)]
    exact emit_of_forEvent (by exact hsingle) _
  have hticks' : e'.clock.ticksDue elapsed = .ok ticks := by rwa [hclock]
  rw [advanceWith, advanceBy, hstop, hcycles]
  simp only [hheard, hticks', hdecay, Bool.false_eq_true, if_false]
  generalize notifyAt (depth + 1) _ l = reply, (rejoined e _).serve (notifyAt depth) r = act
    at halike ⊢
  obtain ⟨⟨answer, e₁⟩, ⟨answer', e₂⟩⟩ := reply, act
  obtain ⟨hanswer, hblank⟩ := halike
  cases answer' with
  | error err =>
      cases hanswer
      exact ⟨rfl, hblank⟩
  | ok answer =>
      cases hanswer
      exact ⟨rfl, hblank⟩

end

/-- A step whose instruction notifies a listener, and advancing that ends a sound, end as they do
unheard and then the listener's request by the host, in the same state and with the same answer. -/
theorem actsLast_of_asks {e : Emulator} {l : Listener} {r : Request} (hstop : e.stopped = false)
    (hasks : Asks l r) (hr : Brief r) (hplain : AllListeners Plain e.listeners) :
    (∀ event, Reports e event → e.listeners.forEvent event = [l] →
      ActsLast (fun notify => e.stepWith notify) stopReason (quietly step e).2 r) ∧
    (Attending e.listeners → e.listeners.forEvent .soundOff = [l] →
      ∀ elapsed, EndsSound e elapsed → ∃ count,
        (quietly (advance · elapsed) e).1 = .ok count ∧
          ActsLast (fun notify => e.advanceWith notify elapsed) (fun _ => count)
            (quietly (advance · elapsed) e).2 r) := by
  constructor
  · intro event hreports hsingle
    exact actsLast_step hstop hasks hr hplain hreports hsingle
  · intro hattending hsingle elapsed hends
    exact actsLast_advance hstop hasks hr hplain hattending hsingle hends

theorem actsLast_of_stepper : ∃ e,
    Emulator.new { speed := .number 16 } (.ofList [7]) = .ok e ∧
      let stepper : Listener := { name := "stepper", event := .displayUpdated, action := .step }
      let drawing := (e.performAll
        [.listen .displayUpdated stepper, .load [0xD0, 0x01, 0xFF, 0xFF] none]).2
      let sounding := (e.performAll
        [.listen .soundOff stepper, .load [0x60, 0x03, 0xF0, 0x18, 0xD0, 0x01, 0x61, 0x05] none]).2
      let quarter := Binary64.ofDecimal false 25 (-2)
      (drawing.stopped = false ∧ sounding.stopped = false) ∧ Asks stepper .step ∧ Brief .step ∧
        (AllListeners Plain drawing.listeners ∧ AllListeners Plain sounding.listeners) ∧
        drawing.step.1 = .error (.fault (.illegalOpcode 0x202 0xFFFF)) ∧
        ActsLast (fun notify => drawing.stepWith notify) stopReason (quietly step drawing).2
          .step ∧
        ActsLast (fun notify => sounding.advanceWith notify quarter) (fun _ => 4)
          (quietly (advance · quarter) sounding).2 .step := by
  refine ⟨_, rfl, ?_⟩
  intro stepper drawing sounding quarter
  have hasks : Asks stepper .step := fun _ _ => rfl
  have hplain : ∀ event, AllListeners Plain (({} : Listeners).add event stepper) :=
    fun event => AllListeners.empty.add event (plain_of_action nofun)
  have hdrawing : drawing.stopped = false := by decide +kernel
  have hsounding : sounding.stopped = false := by decide +kernel
  have hreports : Reports drawing .displayUpdated := .drawn (by decide +kernel)
  have hattending : Attending sounding.listeners := by
    intro event hevent
    have hnone : (sounding.listeners.forEvent event).isEmpty = true := by
      cases event with
      | soundOff => exact absurd rfl hevent
      | displayUpdated | soundOn => decide +kernel
    rw [List.isEmpty_iff.mp hnone]
    exact nofun
  have hends : EndsSound sounding quarter :=
    ⟨4, 15, 4, ((unheard sounding).batchWith notify 0 4).2, by decide +kernel, by decide +kernel,
      Prod.ext (by decide +kernel) rfl, by decide +kernel, by decide +kernel⟩
  have hstep := (actsLast_of_asks hdrawing hasks trivial (hplain _)).1 _ hreports rfl
  obtain ⟨count, hcount, hadvance⟩ :=
    (actsLast_of_asks hsounding hasks trivial (hplain _)).2 hattending rfl quarter hends
  have hfour : (quietly (advance · quarter) sounding).1 = .ok 4 := by decide +kernel
  cases hcount.symm.trans hfour
  exact ⟨⟨hdrawing, hsounding⟩, hasks, trivial, ⟨hplain _, hplain _⟩, by decide +kernel, hstep,
    hadvance⟩

end Chip8.Proofs.Reentry
