import Chip8.Proofs.Loading

namespace Chip8.Proofs.Stopped

open Chip8.Emulator
open Chip8.Proofs.Loading
open Chip8.Proofs.TwoRuns

/-- A call that asks to execute or that presses or releases a key. -/
def Ordinary : HostCall → Prop
  | .request .step | .request (.run _) | .request (.advance _) | .request (.tick _)
  | .request (.keyDown _) | .request (.keyUp _) => True
  | _ => False

/-- The answer of a machine that is stopped for a reason to an ordinary call. -/
def frozenAnswer (reason : StopReason) : HostCall → Except Error Answer
  | .request .step => .ok (.stop (some reason))
  | .request (.run maxSteps) => .ok (.stop (some (if 1 ≤ maxSteps then reason else .timeout)))
  | .request (.advance _) | .request (.tick _) => .ok (.executed 0)
  | .request (.keyDown key) | .request (.keyUp key) => key.toKey.map fun _ => .nothing
  | _ => .ok .nothing

/-- The second emulator is the first one with other keys and another timestamp. What its listeners
noted is the same, so none was called. -/
def Frozen (e e' : Emulator) : Prop :=
  e' = { e with
    machine := { e.machine with keypad := e'.machine.keypad }
    clock := { e.clock with last := e'.clock.last } }

theorem Frozen.trans {e e' e'' : Emulator} (h : Frozen e e') (h' : Frozen e' e'') :
    Frozen e e'' := by
  rw [Frozen, h', h]

theorem Frozen.stopReason {e e' : Emulator} (h : Frozen e e') : e'.stopReason = e.stopReason := by
  rw [h]
  rfl

theorem Frozen.stopped {e e' : Emulator} (h : Frozen e e') : e'.stopped = e.stopped := by
  rw [h]
  rfl

theorem stopped_of_stopReason {e : Emulator} {reason : StopReason}
    (hstop : e.stopReason = some reason) : e.stopped = true := by
  rw [stopped]
  rw [Emulator.stopReason, Option.map_eq_some_iff] at hstop
  obtain ⟨s, hs, -⟩ := hstop
  rw [hs, Option.isSome_some]

theorem map_answer_change {α : Type} (k : Keypad) (value : HostValue)
    (f : Keypad → Fin 16 → Keypad) (a : α) :
    (k.change value f).1.map (fun _ => a) = value.toKey.map fun _ => a := by
  rw [Keypad.change]
  cases value.toKey with
  | ok key => rfl
  | error err => rfl

section

variable (notify : Emulator → Listener → Reply Unit) {e : Emulator} {reason : StopReason}
  (hstop : e.stopReason = some reason)

include hstop

theorem stepWith_stopped : e.stepWith notify = (.ok (some reason), e) := by
  rw [stepWith, if_pos (stopped_of_stopReason hstop), hstop]

theorem runWith_stopped (maxSteps : Int) :
    e.runWith notify maxSteps.toNat =
      (.ok (some (if 1 ≤ maxSteps then reason else .timeout)), e) := by
  cases hcount : maxSteps.toNat with
  | zero => rw [if_neg (by omega), runWith]
  | succ count =>
      rw [if_pos (by omega), runWith, stepWith_stopped notify hstop]

theorem advanceWith_stopped (elapsed : Binary64) :
    e.advanceWith notify elapsed = (.ok 0, e) := by
  rw [advanceWith, advanceBy, if_pos (stopped_of_stopReason hstop)]

theorem tickWith_stopped (now : Binary64) :
    e.tickWith notify now = (.ok 0, { e with clock := (e.clock.elapsedSince now).2 }) :=
  advanceWith_stopped notify (e := { e with clock := (e.clock.elapsedSince now).2 }) hstop _

theorem serve_stopped {r : Request} (hr : Ordinary (.request r)) :
    (e.serve notify r).1 = frozenAnswer reason (.request r) ∧ Frozen e (e.serve notify r).2 := by
  cases r with
  | step =>
      rw [serve, stepWith_stopped notify hstop]
      exact ⟨rfl, rfl⟩
  | run maxSteps =>
      rw [serve, runWith_stopped notify hstop]
      exact ⟨rfl, rfl⟩
  | advance elapsed =>
      rw [serve, advanceWith_stopped notify hstop]
      exact ⟨rfl, rfl⟩
  | tick now =>
      rw [serve, tickWith_stopped notify hstop]
      exact ⟨rfl, rfl⟩
  | keyDown key => exact ⟨map_answer_change e.machine.keypad key Keypad.press _, rfl⟩
  | keyUp key => exact ⟨map_answer_change e.machine.keypad key Keypad.release _, rfl⟩
  | load _ _ | reset | listen _ _ | unlisten _ _ => exact hr.elim

end

theorem performAll_stopped {e : Emulator} {reason : StopReason}
    (hstop : e.stopReason = some reason) {calls : List HostCall}
    (hcalls : ∀ c ∈ calls, Ordinary c) :
    (e.performAll calls).1 = calls.map (frozenAnswer reason) ∧
      Frozen e (e.performAll calls).2 := by
  induction calls generalizing e with
  | nil => exact ⟨rfl, rfl⟩
  | cons c rest ih =>
      cases c with
      | listen event l => exact (hcalls _ List.mem_cons_self).elim
      | request r =>
          obtain ⟨hanswer, hfirst⟩ :=
            serve_stopped notify hstop (hcalls _ List.mem_cons_self)
          obtain ⟨hanswers, hrest⟩ := ih (hfirst.stopReason.trans hstop)
            fun c hc => hcalls c (List.mem_cons_of_mem _ hc)
          simp only [performAll, perform, List.map_cons]
          exact ⟨by rw [hanswer, hanswers], hfirst.trans hrest⟩

/-- A stopped machine is set going by a reset, and by a load that does not fail. -/
theorem perform_leaves_iff {e : Emulator} {reason : StopReason} (hstop : e.stopReason = some reason)
    (c : HostCall) :
    (e.perform c).2.stopped = false ↔
      c = .reset ∨ ∃ program speed, c = .load program speed ∧ (e.perform c).1 = .ok .nothing := by
  have hstopped := stopped_of_stopReason hstop
  have hstays (hsame : (e.perform c).2.stopped = e.stopped) :
      ¬ (e.perform c).2.stopped = false := by
    rw [hsame, hstopped]
    exact nofun
  cases c with
  | listen event l =>
      exact iff_of_false (hstays rfl) (by rintro (h | ⟨_, _, h, _⟩) <;> cases h)
  | request r =>
      cases r with
      | reset => exact iff_of_true rfl (.inl rfl)
      | load program speed =>
          rcases load_cases e program speed with ⟨err, log, -, hload⟩ | ⟨clock, -, hload⟩
          · refine iff_of_false (hstays ?_) ?_
            · rw [perform, serve, hload]
              rfl
            · rintro (h | ⟨_, _, -, h⟩)
              · cases h
              · rw [perform, serve, hload] at h
                cases h
          · refine iff_of_true ?_ (.inr ⟨program, speed, rfl, ?_⟩)
            · rw [perform, serve, hload]
              rfl
            · rw [perform, serve, hload]
              rfl
      | listen event name | unlisten event name =>
          exact iff_of_false (hstays rfl) (by rintro (h | ⟨_, _, h, _⟩) <;> cases h)
      | step | run _ | advance _ | tick _ | keyDown _ | keyUp _ =>
          exact iff_of_false (hstays (serve_stopped notify hstop (by trivial)).2.stopped)
            (by rintro (h | ⟨_, _, h, _⟩) <;> cases h)

/-- After any ordinary calls a stopped machine has given the answers of a stopped machine and is
unchanged, but for its keys and the last timestamp, and only a reset or a load sets it going. -/
theorem frozen_of_stopped {e : Emulator} {reason : StopReason} (hstop : e.stopReason = some reason)
    {calls : List HostCall} (hcalls : ∀ c ∈ calls, Ordinary c) :
    (e.performAll calls).1 = calls.map (frozenAnswer reason) ∧
      Frozen e (e.performAll calls).2 ∧
      ∀ c, ((e.performAll calls).2.perform c).2.stopped = false ↔
        c = .reset ∨ ∃ program speed, c = .load program speed ∧
          ((e.performAll calls).2.perform c).1 = .ok .nothing := by
  obtain ⟨hanswers, hfrozen⟩ := performAll_stopped hstop hcalls
  exact ⟨hanswers, hfrozen, perform_leaves_iff (hfrozen.stopReason.trans hstop)⟩

theorem frozen_after_underflow : ∃ e,
    Emulator.new {} (.ofList [7]) = .ok e ∧
      let stopped := (e.performAll [.load [0x00, 0xEE] none, .tick .zero, .step]).2
      let calls : List HostCall :=
        [.step, .run 3, .run 0, .advance .nan, .tick (.infinite true), .tick .nan,
          .advance (.infinite false), .keyDown (.int 16), .keyDown (.int 3), .keyUp .null]
      stopped.stopReason = some .stack ∧ (∀ c ∈ calls, Ordinary c) ∧
        (stopped.performAll calls).1 = calls.map (frozenAnswer .stack) ∧
        Frozen stopped (stopped.performAll calls).2 ∧
        ∀ c, ((stopped.performAll calls).2.perform c).2.stopped = false ↔
          c = .reset ∨ ∃ program speed, c = .load program speed ∧
            ((stopped.performAll calls).2.perform c).1 = .ok .nothing := by
  refine ⟨_, rfl, ?_⟩
  intro stopped calls
  have hstop : stopped.stopReason = some .stack := by decide +kernel
  have hcalls : ∀ c ∈ calls, Ordinary c := by
    simp only [calls, List.forall_mem_cons]
    exact ⟨trivial, trivial, trivial, trivial, trivial, trivial, trivial, trivial, trivial, trivial,
      nofun⟩
  exact ⟨hstop, hcalls, frozen_of_stopped hstop hcalls⟩

end Chip8.Proofs.Stopped
