import Chip8.Emulator.Call
import Chip8.Proofs.Stepping

/-!
Two emulators under the same calls. A relation between emulators that loading, keys, timers, single
instructions and single notices keep, with equal answers, is kept with equal answers by every call,
however deep its listeners nest. A relation of an emulator to itself tells of one run.
-/

namespace Chip8.Proofs.TwoRuns

open Chip8.Emulator
open Chip8.Proofs.Stepping

/-- An error that is no fault, so it refuses one call and leaves the machine running. -/
def NotFault (err : Error) : Prop :=
  ∀ f, err ≠ .fault f

theorem notFault_toKey {value : HostValue} {err : Error} (h : value.toKey = .error err) :
    NotFault err := by
  unfold HostValue.toKey at h
  split at h
  · split at h
    · cases h
    · cases h
      exact nofun
  · cases h
    exact nofun

theorem notFault_change {k : Keypad} {value : HostValue} {f : Keypad → Fin 16 → Keypad}
    {err : Error} (h : (k.change value f).1 = .error err) : NotFault err := by
  rw [Keypad.change] at h
  split at h
  · cases h
  · rename_i hkey
    cases h
    exact notFault_toKey hkey

theorem isOfMachine_due {rate : Number} {elapsed : Binary64} {err : Error}
    (h : Clock.due rate elapsed = .error err) : err.isOfMachine = false := by
  rw [Clock.due] at h
  split at h
  · rcases hreal : rate.toReal with e | x
    · rw [hreal] at h
      cases h
      cases rate with
      | int n =>
          rw [Number.toReal, Binary64.ofInt] at hreal
          split at hreal
          · cases hreal
          · cases hreal
            rfl
      | real x => cases hreal
    · rw [hreal] at h
      change (x.mul elapsed).floor = _ at h
      unfold Binary64.floor at h
      split at h
      · cases h
        rfl
      · cases h
        rfl
      · cases h
  · cases h

theorem notFault_due {rate : Number} {elapsed : Binary64} {err : Error}
    (h : Clock.due rate elapsed = .error err) : NotFault err := by
  rintro f rfl
  cases isOfMachine_due h

section

variable (R : Emulator → Emulator → Prop) (F : Fault → Emulator → Emulator → Prop)

/-- Equal answers of related emulators. A fault that is answered also relates them by `F`. -/
inductive Agree {α : Type} : Reply α → Reply α → Prop
  | ok {e₁ e₂ : Emulator} (answer : α) (h : R e₁ e₂) : Agree (.ok answer, e₁) (.ok answer, e₂)
  | error {e₁ e₂ : Emulator} (err : Error) (h : R e₁ e₂)
      (hfault : ∀ f, err = .fault f → F f e₁ e₂) : Agree (.error err, e₁) (.error err, e₂)

/-- The script that goes on after an answer only passes on its error. -/
def PassesOn (answer : Except Error Answer) (next : Script) : Prop :=
  ∃ err, answer = .error err ∧ next = .fail err

/-- Scripts that do the same on related machines. They fail at once with the error of a request, or
with one that no machine has to account for. -/
inductive Matched : Script → Script → Prop
  | done : Matched .done .done
  | fail (err : Error) (h : ∀ f, err = .fault f → ∀ e₁ e₂, R e₁ e₂ → F f e₁ e₂) :
      Matched (.fail err) (.fail err)
  | ask (r : Request) {next₁ next₂ : Except Error Answer → Machine → Script}
      (h : ∀ answer e₁ e₂, R e₁ e₂ →
        ¬ (PassesOn answer (next₁ answer e₁.machine) ∧ PassesOn answer (next₂ answer e₂.machine)) →
        Matched (next₁ answer e₁.machine) (next₂ answer e₂.machine)) :
      Matched (.ask r next₁) (.ask r next₂)

end

/-- All listeners of a table, known or registered, have a property. -/
structure AllListeners (L : Listener → Prop) (ls : Listeners) : Prop where
  known : ∀ l ∈ ls.known, L l
  registered : ∀ r ∈ ls.registered, L r.2

namespace AllListeners

variable {L : Listener → Prop} {ls : Listeners}

theorem empty : AllListeners L {} :=
  ⟨fun _ h => absurd h List.not_mem_nil, fun _ h => absurd h List.not_mem_nil⟩

theorem forEvent (h : AllListeners L ls) (event : Event) : ∀ l ∈ ls.forEvent event, L l := by
  intro l hl
  obtain ⟨r, hr, rfl⟩ := List.mem_map.mp hl
  exact h.registered r (List.mem_filter.mp hr).1

theorem add (h : AllListeners L ls) (event : Event) {l : Listener} (hl : L l) :
    AllListeners L (ls.add event l) := by
  rw [Listeners.add]
  split
  · rename_i k hfind
    refine ⟨h.known, fun r hr => ?_⟩
    rcases List.mem_append.mp hr with hold | hnew
    · exact h.registered r hold
    · rw [List.mem_singleton.mp hnew]
      exact h.known k (List.mem_of_find?_eq_some hfind)
  · refine ⟨fun k hk => ?_, fun r hr => ?_⟩
    · rcases List.mem_append.mp hk with hold | hnew
      · exact h.known k hold
      · rwa [List.mem_singleton.mp hnew]
    · rcases List.mem_append.mp hr with hold | hnew
      · exact h.registered r hold
      · rwa [List.mem_singleton.mp hnew]

theorem remove (h : AllListeners L ls) (event : Event) (name : Option String) :
    AllListeners L (ls.remove event name) :=
  ⟨h.known, fun r hr => h.registered r (List.mem_filter.mp hr).1⟩

end AllListeners

/-- What makes two emulators answer alike and stay related. Listeners that the host brings have the
property `L`. -/
structure Simulation (R : Emulator → Emulator → Prop) (F : Fault → Emulator → Emulator → Prop)
    (L : Listener → Prop) : Prop where
  stop : ∀ {e₁ e₂}, R e₁ e₂ → e₁.machine.stop = e₂.machine.stop
  clock : ∀ {e₁ e₂}, R e₁ e₂ → e₁.clock = e₂.clock
  listeners : ∀ {e₁ e₂}, R e₁ e₂ → e₁.listeners = e₂.listeners
  allListeners : ∀ {e₁ e₂}, R e₁ e₂ → AllListeners L e₁.listeners
  silent : ∀ {e₁ e₂}, R e₁ e₂ → e₁.stopped = false → Agree R F (silent e₁) (silent e₂)
  /-- A fault that comes out of a notification is latched once more. -/
  latch : ∀ {e₁ e₂ f}, R e₁ e₂ → F f e₁ e₂ →
    R (e₁.latch f) (e₂.latch f) ∧ F f (e₁.latch f) (e₂.latch f)
  countDown : ∀ {e₁ e₂} ticks, R e₁ e₂ →
    (e₁.machine.sound.decay ticks).1 = (e₂.machine.sound.decay ticks).1 ∧
      R (countDown e₁ ticks) (countDown e₂ ticks)
  retime : ∀ {e₁ e₂} clock, R e₁ e₂ → R { e₁ with clock } { e₂ with clock }
  load : ∀ {e₁ e₂} program speed, R e₁ e₂ →
    Agree R F (e₁.load program speed) (e₂.load program speed)
  reset : ∀ {e₁ e₂}, R e₁ e₂ → R e₁.reset e₂.reset
  keys : ∀ {e₁ e₂} value f, R e₁ e₂ →
    Agree R F (e₁.onKeypad (·.change value f)) (e₂.onKeypad (·.change value f))
  listen : ∀ {e₁ e₂} event {l}, L l → R e₁ e₂ → R (e₁.addListener event l) (e₂.addListener event l)
  unlisten : ∀ {e₁ e₂} event name, R e₁ e₂ →
    R (e₁.removeListener event name) (e₂.removeListener event name)
  /-- A listener that only takes note can be named by any other. -/
  recording : ∀ name event, L { name, event }
  noted : ∀ {e₁ e₂ l}, L l → R e₁ e₂ → R (noted e₁ l) (noted e₂ l)
  script : ∀ {e₁ e₂ l}, L l → R e₁ e₂ → Matched R F (script e₁ l) (script e₂ l)

/-- What makes two emulators answer alike that are only asked to execute, at any time, and stay
related. -/
structure Lockstep (R : Emulator → Emulator → Prop) (F : Fault → Emulator → Emulator → Prop)
    (notify : Emulator → Listener → Reply Unit) : Prop where
  stop : ∀ {e₁ e₂}, R e₁ e₂ → e₁.machine.stop = e₂.machine.stop
  clock : ∀ {e₁ e₂}, R e₁ e₂ → e₁.clock = e₂.clock
  execute : ∀ {e₁ e₂}, R e₁ e₂ → e₁.stopped = false →
    Agree R F (e₁.executeWith notify) (e₂.executeWith notify)
  decay : ∀ {e₁ e₂} ticks, R e₁ e₂ →
    Agree R F (e₁.decayWith notify ticks) (e₂.decayWith notify ticks)
  retime : ∀ {e₁ e₂} clock, R e₁ e₂ → R { e₁ with clock } { e₂ with clock }

section

variable {R : Emulator → Emulator → Prop} {F : Fault → Emulator → Emulator → Prop}
  {notify : Emulator → Listener → Reply Unit} {e₁ e₂ : Emulator}

theorem Agree.notFault {α : Type} {err : Error} (h : R e₁ e₂) (herr : NotFault err) :
    Agree R F (α := α) (.error err, e₁) (.error err, e₂) :=
  .error err h fun f hf => absurd hf (herr f)

theorem agree_of_answers {α : Type} {r₁ r₂ : Reply α} (hanswer : r₁.1 = r₂.1) (h : R r₁.2 r₂.2) :
    Agree R (fun _ _ _ => True) r₁ r₂ := by
  obtain ⟨answer | answer, e₁⟩ := r₁ <;> obtain ⟨_, e₂⟩ := r₂ <;> cases hanswer
  · exact .error _ h fun _ _ => trivial
  · exact .ok _ h

theorem Agree.state {α : Type} {r₁ r₂ : Reply α} (h : Agree R F r₁ r₂) : R r₁.2 r₂.2 := by
  cases h with
  | ok _ h => exact h
  | error _ h _ => exact h

theorem Agree.map {α β : Type} {r₁ r₂ : Reply α} (g : α → β) (h : Agree R F r₁ r₂) :
    Agree R F (Reply.map g r₁) (Reply.map g r₂) := by
  cases h with
  | ok answer h => exact .ok (g answer) h
  | error err h hfault => exact .error err h hfault

variable (hL : Lockstep R F notify)

include hL

theorem stopped_eq (h : R e₁ e₂) : e₁.stopped = e₂.stopped := by
  rw [stopped, stopped, hL.stop h]

theorem stopReason_eq (h : R e₁ e₂) : e₁.stopReason = e₂.stopReason := by
  rw [stopReason, stopReason, hL.stop h]

theorem agree_stepWith (h : R e₁ e₂) :
    Agree R F (e₁.stepWith notify) (e₂.stepWith notify) := by
  rw [stepWith, stepWith, ← stopped_eq hL h, ← stopReason_eq hL h]
  split
  · exact .ok _ h
  · rename_i hstop
    have hexecute := hL.execute h (by simpa using hstop)
    generalize e₁.executeWith notify = r₁, e₂.executeWith notify = r₂ at hexecute ⊢
    cases hexecute with
    | ok _ h =>
        simp only [← stopReason_eq hL h]
        exact .ok _ h
    | error err h hfault => exact .error err h hfault

theorem agree_runWith (h : R e₁ e₂) (count : Nat) :
    Agree R F (e₁.runWith notify count) (e₂.runWith notify count) := by
  induction count generalizing e₁ e₂ with
  | zero => exact .ok _ h
  | succ count ih =>
      have hstep := agree_stepWith hL h
      simp only [runWith]
      generalize e₁.stepWith notify = r₁, e₂.stepWith notify = r₂ at hstep ⊢
      cases hstep with
      | ok reason h =>
          cases reason with
          | none => exact ih h
          | some reason => exact .ok _ h
      | error err h hfault =>
          simp only [← stopReason_eq hL h]
          split
          · exact .ok _ h
          · exact .error err h hfault

theorem agree_batchWith (h : R e₁ e₂) (hstop : e₁.stopped = false) (executed count : Nat) :
    Agree R F (e₁.batchWith notify executed count) (e₂.batchWith notify executed count) := by
  -- The first instruction of a batch is executed unchecked, so the machines must not be stopped.
  induction count generalizing e₁ e₂ executed with
  | zero => exact .ok _ h
  | succ count ih =>
      have hexecute := hL.execute h hstop
      simp only [batchWith]
      generalize e₁.executeWith notify = r₁, e₂.executeWith notify = r₂ at hexecute ⊢
      cases hexecute with
      | ok _ h =>
          simp only [← stopped_eq hL h]
          split
          · exact .ok _ h
          · rename_i hnext
            exact ih h (by simpa using hnext) _
      | error err h hfault => exact .error err h hfault

theorem agree_advanceWith (h : R e₁ e₂) (elapsed : Binary64) :
    Agree R F (e₁.advanceWith notify elapsed) (e₂.advanceWith notify elapsed) := by
  rw [advanceWith, advanceWith, advanceBy, advanceBy, ← stopped_eq hL h, ← hL.clock h]
  split
  · exact .ok 0 h
  · rename_i hstop
    split
    · rename_i err hcycles
      exact .notFault h (notFault_due hcycles)
    · rename_i cycles _
      have hbatch := agree_batchWith hL h (by simpa using hstop) 0 cycles.toNat
      generalize e₁.batchWith notify 0 cycles.toNat = r₁,
        e₂.batchWith notify 0 cycles.toNat = r₂ at hbatch ⊢
      cases hbatch with
      | error err h hfault => exact .error err h hfault
      | @ok f₁ f₂ executed h =>
          simp only [← hL.clock h]
          split
          · rename_i err hticks
            exact .notFault h (notFault_due hticks)
          · rename_i ticks _
            have hdecay := hL.decay ticks h
            generalize f₁.decayWith notify ticks = r₁, f₂.decayWith notify ticks = r₂ at hdecay ⊢
            cases hdecay with
            | ok _ h => exact .ok executed h
            | error err h hfault => exact .error err h hfault

theorem agree_tickWith (h : R e₁ e₂) (now : Binary64) :
    Agree R F (e₁.tickWith notify now) (e₂.tickWith notify now) := by
  rw [tickWith, tickWith, ← hL.clock h]
  exact agree_advanceWith hL (hL.retime _ h) _

end

section

variable {R : Emulator → Emulator → Prop} {F : Fault → Emulator → Emulator → Prop}
  {L : Listener → Prop} (hS : Simulation R F L)
  {notify : Emulator → Listener → Reply Unit}
  (hnotify : ∀ {e₁ e₂ : Emulator} {l : Listener}, L l → R e₁ e₂ →
    Agree R F (notify e₁ l) (notify e₂ l))
  {e₁ e₂ : Emulator}

include hS in
theorem agree_settle {r₁ r₂ : Reply Unit} (h : Agree R F r₁ r₂) :
    Agree R F (settle r₁) (settle r₂) := by
  cases h with
  | ok answer h => exact .ok answer h
  | error err h hfault =>
      cases err with
      | fault f =>
          have hlatch := hS.latch h (hfault f rfl)
          exact .error _ hlatch.1 (by rintro f' ⟨⟩; exact hlatch.2)
      | _ => exact .error _ h hfault

include hnotify in
theorem agree_callAll (h : R e₁ e₂) {listeners : List Listener} (hL : ∀ l ∈ listeners, L l) :
    Agree R F (e₁.callAll notify listeners) (e₂.callAll notify listeners) := by
  induction listeners generalizing e₁ e₂ with
  | nil => exact .ok () h
  | cons l rest ih =>
      have hcall := hnotify (hL l List.mem_cons_self) h
      simp only [callAll]
      generalize notify e₁ l = r₁, notify e₂ l = r₂ at hcall ⊢
      cases hcall with
      | ok _ h => exact ih h fun l hl => hL l (List.mem_cons_of_mem _ hl)
      | error err h hfault => exact .error err h hfault

include hS hnotify

theorem agree_emit (h : R e₁ e₂) (event : Event) :
    Agree R F (e₁.emit notify event) (e₂.emit notify event) := by
  rw [emit, emit, ← hS.listeners h]
  exact agree_callAll hnotify h ((hS.allListeners h).forEvent event)

theorem agree_executeWith (h : R e₁ e₂) (hstop : e₁.stopped = false) :
    Agree R F (e₁.executeWith notify) (e₂.executeWith notify) := by
  have hsilent := hS.silent h hstop
  rw [executeWith_eq, executeWith_eq]
  generalize silent e₁ = r₁, silent e₂ = r₂ at hsilent ⊢
  cases hsilent with
  | error err h hfault => exact .error err h hfault
  | ok event h =>
      cases event with
      | none => exact .ok () h
      | some event => exact agree_settle hS (agree_emit hS hnotify h event)

theorem agree_decayWith (h : R e₁ e₂) (ticks : Int) :
    Agree R F (e₁.decayWith notify ticks) (e₂.decayWith notify ticks) := by
  obtain ⟨hended, hcounted⟩ := hS.countDown ticks h
  rw [decayWith, decayWith, ← hended]
  split
  · exact agree_emit hS hnotify hcounted _
  · exact .ok () hcounted

theorem Simulation.lockstep : Lockstep R F notify where
  stop := hS.stop
  clock := hS.clock
  execute := agree_executeWith hS hnotify
  decay ticks h := agree_decayWith hS hnotify h ticks
  retime := hS.retime

theorem agree_serve (h : R e₁ e₂) (r : Request) :
    Agree R F (e₁.serve notify r) (e₂.serve notify r) := by
  have hL := hS.lockstep hnotify
  cases r with
  | load program speed => exact (hS.load program speed h).map _
  | reset => exact .ok _ (hS.reset h)
  | step => exact (agree_stepWith hL h).map _
  | run maxSteps => exact (agree_runWith hL h _).map _
  | advance elapsed => exact (agree_advanceWith hL h elapsed).map _
  | tick now => exact (agree_tickWith hL h now).map _
  | keyDown key => exact (hS.keys key Keypad.press h).map _
  | keyUp key => exact (hS.keys key Keypad.release h).map _
  | listen event name => exact .ok _ (hS.listen event (hS.recording name event) h)
  | unlisten event name => exact .ok _ (hS.unlisten event name h)

end

section

variable {R : Emulator → Emulator → Prop} {F : Fault → Emulator → Emulator → Prop}
  {L : Listener → Prop} {e₁ e₂ : Emulator}

theorem agree_follow {ask : Emulator → Request → Reply Answer}
    (hask : ∀ {e₁ e₂} r, R e₁ e₂ → Agree R F (ask e₁ r) (ask e₂ r)) {s₁ s₂ : Script}
    (hs : Matched R F s₁ s₂) (h : R e₁ e₂) : Agree R F (e₁.follow ask s₁) (e₂.follow ask s₂) := by
  -- Where both scripts pass an error on, it is the one of the request; elsewhere they stay
  -- matched.
  induction hs generalizing e₁ e₂ with
  | done => exact .ok () h
  | fail err hfault => exact .error err h fun f hf => hfault f hf _ _ h
  | @ask r next₁ next₂ _ ih =>
      have hanswer := hask r h
      simp only [follow]
      generalize ask e₁ r = r₁, ask e₂ r = r₂ at hanswer ⊢
      cases hanswer with
      | ok answer h => exact ih _ _ _ h (by rintro ⟨⟨_, ⟨⟩, _⟩, _⟩) h
      | @error e₁ e₂ err h hfault =>
          by_cases hpass : PassesOn (.error err) (next₁ (.error err) e₁.machine) ∧
              PassesOn (.error err) (next₂ (.error err) e₂.machine)
          · obtain ⟨⟨_, ⟨⟩, hnext₁⟩, _, ⟨⟩, hnext₂⟩ := hpass
            rw [hnext₁, hnext₂]
            exact .error err h hfault
          · exact ih _ _ _ h hpass h

theorem agree_notifyAt (hS : Simulation R F L) (depth : Nat) {l : Listener} (hl : L l)
    (h : R e₁ e₂) : Agree R F (notifyAt depth e₁ l) (notifyAt depth e₂ l) := by
  -- The induction is on how deep calls may nest: a listener's requests are served with listeners
  -- that may nest one call less.
  induction depth generalizing e₁ e₂ l with
  | zero => exact .notFault h nofun
  | succ depth ih =>
      exact agree_follow (fun r h => agree_serve hS ih h r) (hS.script hl h) (hS.noted hl h)

/-- Scripts that fail only with the error of a request, at once, or with an error of some kind. -/
inductive RaisesOnly (own : Error → Prop) : Script → Prop
  | done : RaisesOnly own .done
  | fail {err : Error} (h : own err) : RaisesOnly own (.fail err)
  | ask (r : Request) {next : Except Error Answer → Machine → Script}
      (h : ∀ answer m, ¬ PassesOn answer (next answer m) → RaisesOnly own (next answer m)) :
      RaisesOnly own (.ask r next)

theorem raisesOnly_any (s : Script) : RaisesOnly (fun _ => True) s := by
  induction s with
  | done => exact .done
  | fail err => exact .fail trivial
  | ask r next ih => exact .ask r fun answer m _ => ih answer m

theorem RaisesOnly.matched {own : Error → Prop} {s : Script} (h : RaisesOnly own s)
    (hown : ∀ f, own (.fault f) → ∀ e₁ e₂, R e₁ e₂ → F f e₁ e₂)
    (hmachine : ∀ e₁ e₂, R e₁ e₂ → e₁.machine = e₂.machine) : Matched R F s s := by
  induction h with
  | done => exact .done
  | fail h =>
      refine .fail _ ?_
      rintro f rfl
      exact hown f h
  | ask r _ ih =>
      refine .ask r fun answer e₁ e₂ hR hpass => ?_
      rw [hmachine e₁ e₂ hR] at hpass ⊢
      exact ih answer e₂.machine fun hnext => hpass ⟨hnext, hnext⟩

/-- A call of the host in which a listener that it brings has a property. -/
def Brings (L : Listener → Prop) : HostCall → Prop
  | .request _ => True
  | .listen _ l => L l

theorem agree_perform (hS : Simulation R F L) {c : HostCall} (hc : Brings L c) (h : R e₁ e₂) :
    Agree R F (e₁.perform c) (e₂.perform c) := by
  cases c with
  | request r => exact agree_serve hS (agree_notifyAt hS nestingLimit) h r
  | listen event l => exact .ok _ (hS.listen event hc h)

/-- Related emulators give equal answers to the same calls and stay related, if each call keeps
them so. -/
theorem agree_calls {calls : List HostCall}
    (hperform : ∀ c ∈ calls, ∀ {e₁ e₂}, R e₁ e₂ → Agree R F (e₁.perform c) (e₂.perform c))
    (h : R e₁ e₂) :
    (e₁.performAll calls).1 = (e₂.performAll calls).1 ∧
      R (e₁.performAll calls).2 (e₂.performAll calls).2 := by
  induction calls generalizing e₁ e₂ with
  | nil => exact ⟨rfl, h⟩
  | cons c rest ih =>
      have hfirst := hperform c List.mem_cons_self h
      simp only [performAll]
      generalize e₁.perform c = r₁, e₂.perform c = r₂ at hfirst ⊢
      cases hfirst with
      | ok _ h | error _ h _ =>
          obtain ⟨hanswers, hrest⟩ := ih (fun c hc => hperform c (List.mem_cons_of_mem _ hc)) h
          exact ⟨by rw [hanswers], hrest⟩

theorem agree_performAll (hS : Simulation R F L) {calls : List HostCall}
    (hcalls : ∀ c ∈ calls, Brings L c) (h : R e₁ e₂) :
    (e₁.performAll calls).1 = (e₂.performAll calls).1 ∧
      R (e₁.performAll calls).2 (e₂.performAll calls).2 :=
  agree_calls (fun c hc _ _ h => agree_perform hS (hcalls c hc) h) h

end

end Chip8.Proofs.TwoRuns
