import Chip8.CommandLine.Session
import Chip8.Proofs.History

namespace Chip8.Proofs.Frames

open Chip8.CommandLine
open Chip8.Emulator
open Chip8.Proofs.Batches
open Chip8.Proofs.History
open Chip8.Proofs.NoteTaking
open Chip8.Proofs.Stepping
open Chip8.Proofs.TwoRuns

/-- An instruction that ends without a fault. -/
def succeeds : Happening → Bool
  | .instruction e => (silent e).1.isOk
  | _ => false

/-- The number of instructions that were executed without a fault. -/
def completed (hs : List Happening) : Nat :=
  hs.countP succeeds

/-- The number of instructions that were executed without a fault in the call that fails first. -/
def cutOff (e : Emulator) : List HostCall → Nat
  | [] => 0
  | c :: rest =>
    match e.perform c with
    | (.error _, _) => completed (happenings e c)
    | (.ok _, e') => cutOff e' rest

theorem completed_append (hs hs' : List Happening) :
    completed (hs ++ hs') = completed hs + completed hs' :=
  List.countP_append

theorem completed_countdowns (e : Emulator) (elapsed : Binary64) :
    completed (countdowns e elapsed) = 0 := by
  rw [completed, List.countP_eq_zero]
  intro h hmem
  obtain ⟨ticks, rfl⟩ := countdown_of_mem_countdowns hmem
  exact nofun

theorem succeeds_of_step {e : Emulator} (hstop : e.stopped = false)
    (hfault : e.step.2.fault? = none) : succeeds (.instruction e) = true := by
  have houtcome := outcome_silent e
  rw [step_state hstop, executeWith_eq] at hfault
  rw [succeeds]
  generalize silent e = reply at houtcome hfault ⊢
  cases houtcome with
  | illegal _ => cases hfault
  | stackFault _ _ => cases hfault
  | done _ _ _ => rfl

theorem completed_trail {e : Emulator} {count : Nat}
    (hfault : (stepped e (executed e count)).fault? = none) :
    completed (trail e count) = executed e count := by
  induction count generalizing e with
  | zero => rfl
  | succ count ih =>
      rw [trail, executed]
      rw [executed] at hfault
      cases hstop : e.stopped with
      | true => rfl
      | false =>
          rw [hstop] at hfault
          have hrest : (stepped e.step.2 (executed e.step.2 count)).fault? = none := hfault
          have hnext : e.step.2.fault? = none := by
            cases hends : e.step.2.stopped with
            | true => rwa [executed_of_stopped hends] at hrest
            | false => exact fault?_of_running ((stopped_eq_false_iff _).mp hends)
          have hfirst := List.countP_cons_of_pos
            (l := trail e.step.2 count) (succeeds_of_step hstop hnext)
          exact hfirst.trans (congrArg (· + 1) (ih hrest))

/-- A clock tells how many instructions and how many ticks are due for some seconds. -/
def Budgeted (c : Clock) (elapsed : Binary64) : Prop :=
  (∃ cycles, c.cyclesDue elapsed = .ok cycles) ∧ ∃ ticks, c.ticksDue elapsed = .ok ticks

inductive Framed (e : Emulator) (frame : Binary64) : Reply Nat → Prop
  | whole {e' : Emulator} (hran : Ran e e') (hfault : e'.fault? = none) :
      Framed e frame (.ok (completed (advanced e frame)), e')
  | fault {e' : Emulator} {f : Fault} (hstop : e'.machine.stop = some (.faulted f)) :
      Framed e frame (.error (.fault f), e')
  | clock {e' : Emulator} {err : Error} (hhost : err.isOfMachine = false)
      (hdue : ¬ Budgeted e.clock frame) : Framed e frame (.error err, e')

section

variable {e : Emulator} {frame : Binary64} (hstop : e.stopped = false)
  (hrecording : Recording e.listeners)

include hstop hrecording

theorem framed_of_batch {e' : Emulator} {cycles : Int}
    (hcycles : e.clock.cyclesDue frame = .ok cycles) (hran : Ran e e')
    (hbatch : e.batchWith notify 0 cycles.toNat = (.ok (0 + executed e cycles.toNat), e'))
    (hend : stepped e (executed e cycles.toNat) = e') (hfault : e'.fault? = none) :
    Framed e frame (e.advance frame) := by
  have hcount : completed (advanced e frame) = executed e cycles.toNat := by
    rw [advanced, hstop, hcycles]
    refine (completed_append _ _).trans ?_
    rw [completed_countdowns, completed_trail (by rwa [hend]), Nat.add_zero]
  cases hticks : e.clock.ticksDue frame with
  | error err =>
      have hticks' : e'.clock.ticksDue frame = .error err := by rwa [hran.clock]
      rw [advance, advanceWith, advanceBy, hstop, hcycles]
      simp only [hbatch, hticks', Bool.false_eq_true, if_false]
      refine .clock (isOfMachine_due hticks) ?_
      rintro ⟨-, ticks, hok⟩
      rw [hticks] at hok
      cases hok
  | ok ticks =>
      rw [advance_of_batch hstop hrecording hcycles hticks hran hbatch, Nat.zero_add, ← hcount]
      obtain ⟨notices, hretimed⟩ := retimed_frame e' (e'.machine.delay.decay ticks).2
        (e'.machine.sound.decay ticks).2
      rw [hretimed]
      exact .whole (hran.trans rfl) hfault

theorem framed_advance (frame : Binary64) : Framed e frame (e.advance frame) := by
  cases hcycles : e.clock.cyclesDue frame with
  | error err =>
      rw [advance, advanceWith, advanceBy, hstop, hcycles]
      refine .clock (isOfMachine_due hcycles) ?_
      rintro ⟨⟨cycles, hok⟩, -⟩
      rw [hcycles] at hok
      cases hok
  | ok cycles =>
      have htogether := run_batch hstop hrecording 0 cycles.toNat
      generalize hend : stepped e (executed e cycles.toNat) = e',
        e.runWith notify cycles.toNat = run,
        hbatch : e.batchWith notify 0 cycles.toNat = batch at htogether
      cases htogether with
      | timeout hran hnext =>
          have hfault := fault?_of_running hnext
          exact framed_of_batch hstop hrecording hcycles hran hbatch hend hfault
      | halt hran hhalted =>
          have hfault := fault?_of_stop hhalted
          exact framed_of_batch hstop hrecording hcycles hran hbatch hend hfault
      | fault hran hfaulted =>
          rw [advance, advanceWith, advanceBy, hstop, hcycles]
          simp only [hbatch, Bool.false_eq_true, if_false]
          exact .fault hfaulted

end

section

variable {e e' : Emulator} {c : HostCall} {answer : Except Error Answer} {rest : List HostCall}
  (hperform : e.perform c = (answer, e'))

include hperform

theorem performAll_cons : (e.performAll (c :: rest)).2 = (e'.performAll rest).2 := by
  rw [performAll, hperform]

theorem history_cons : history e (c :: rest) = happenings e c ++ history e' rest := by
  rw [history, hperform]

end

def advances (frame : Binary64) (count : Nat) : List HostCall :=
  List.replicate count (.advance frame)

theorem idle_of_stopped {e : Emulator} (hstop : e.stopped = true) (frame : Binary64) (count : Nat) :
    (e.performAll (advances frame count)).2 = e ∧ history e (advances frame count) = [] ∧
      cutOff e (advances frame count) = 0 := by
  have hperform : e.perform (.advance frame) = (.ok (.executed 0), e) := by
    change Reply.map Answer.executed (e.advanceWith notify frame) = _
    rw [advanceWith, advanceBy, if_pos hstop]
    rfl
  have hnone : happenings e (.advance frame) = [] := if_pos hstop
  induction count with
  | zero => exact ⟨rfl, rfl, rfl⟩
  | succ count ih =>
      obtain ⟨hstate, hhistory, hcut⟩ := ih
      have hcalls : advances frame (count + 1) = .advance frame :: advances frame count := rfl
      rw [hcalls, performAll_cons hperform, history_cons hperform, hnone, cutOff, hperform]
      exact ⟨hstate, hhistory, hcut⟩

/-- How the frames of a run end: the instructions counted onto those before, the answer, and the
emulator. -/
inductive FramesEnd (e : Emulator) (frame : Binary64) (calls : List HostCall) (before : Nat) :
    Nat × Reply Unit → Prop
  | whole (hfault : (e.performAll calls).2.fault? = none) (hcut : cutOff e calls = 0) :
      FramesEnd e frame calls before
        (before + completed (history e calls), .ok (), (e.performAll calls).2)
  | fault {f : Fault} {n : Nat} (hstop : (e.performAll calls).2.machine.stop = some (.faulted f))
      (hcount : n + cutOff e calls = before + completed (history e calls)) :
      FramesEnd e frame calls before (n, .error (.fault f), (e.performAll calls).2)
  | clock {e' : Emulator} {err : Error} {n : Nat} (hhost : err.isOfMachine = false)
      (hdue : calls ≠ [] ∧ ¬ Budgeted e.clock frame) :
      FramesEnd e frame calls before (n, .error err, e')

theorem FramesEnd.cons {e e' : Emulator} {frame : Binary64} {c : HostCall} {calls : List HostCall}
    {before : Nat} {answer : Answer} {reply : Nat × Reply Unit}
    (hperform : e.perform c = (.ok answer, e')) (hclock : e'.clock = e.clock)
    (h : FramesEnd e' frame calls (before + completed (happenings e c)) reply) :
    FramesEnd e frame (c :: calls) before reply := by
  have hcut : cutOff e (c :: calls) = cutOff e' calls := by rw [cutOff, hperform]
  have hcount : before + completed (history e (c :: calls)) =
      before + completed (happenings e c) + completed (history e' calls) := by
    rw [history_cons hperform, completed_append, Nat.add_assoc]
  cases h with
  | whole hfault hwhole =>
      rw [← hcount, ← performAll_cons hperform]
      refine .whole ?_ (hcut.trans hwhole)
      rwa [performAll_cons hperform]
  | fault hstop hn =>
      rw [← performAll_cons hperform]
      refine .fault ?_ ?_
      · rwa [performAll_cons hperform]
      · rw [hcut, hn, hcount]
  | clock hhost hdue => exact .clock hhost ⟨List.cons_ne_nil _ _, hclock ▸ hdue.2⟩

theorem framesEnd_of_stop {e : Emulator} (hstop : e.stopped = true) (hfault : e.fault? = none)
    (frame : Binary64) (before count : Nat) :
    FramesEnd e frame (advances frame count) before (before, .ok (), e) := by
  obtain ⟨hstate, hhistory, hcut⟩ := idle_of_stopped hstop frame count
  have hend : FramesEnd e frame (advances frame count) before
      (before + completed (history e (advances frame count)), .ok (),
        (e.performAll (advances frame count)).2) :=
    .whole (by rwa [hstate]) hcut
  rwa [hstate, hhistory] at hend

theorem framesEnd_of_fault {e e' : Emulator} {frame : Binary64} {f : Fault}
    (hperform : e.perform (.advance frame) = (.error (.fault f), e'))
    (hfaulted : e'.machine.stop = some (.faulted f)) (before count : Nat) :
    FramesEnd e frame (advances frame (count + 1)) before (before, .error (.fault f), e') := by
  have hstop := stopped_of_stop hfaulted
  have hcalls : advances frame (count + 1) = .advance frame :: advances frame count := rfl
  obtain ⟨hstate, hhistory, -⟩ := idle_of_stopped hstop frame count
  have hend : (e.performAll (advances frame (count + 1))).2 = e' := by
    rw [hcalls, performAll_cons hperform, hstate]
  have hcount : before + cutOff e (advances frame (count + 1)) =
      before + completed (history e (advances frame (count + 1))) := by
    rw [hcalls, history_cons hperform, hhistory, List.append_nil, cutOff, hperform]
  rw [← hend] at hfaulted ⊢
  exact .fault hfaulted hcount

theorem framesEnd_runFrames {e : Emulator} (hstop : e.stopped = false)
    (hrecording : Recording e.listeners) (frame : Binary64) (before count : Nat) :
    FramesEnd e frame (advances frame count) before (runFrames frame e before count) := by
  -- By induction on the frames, which go on while the machine is running.
  induction count generalizing e before with
  | zero =>
      have hfault := fault?_of_running ((stopped_eq_false_iff e).mp hstop)
      have hend : FramesEnd e frame [] before (before + completed (history e []), .ok (), e) :=
        .whole hfault rfl
      exact hend
  | succ count ih =>
      have hframed := framed_advance hstop hrecording frame
      have hperform : e.perform (.advance frame) = Reply.map .executed (e.advance frame) := rfl
      rw [runFrames]
      generalize e.advance frame = reply at hframed hperform ⊢
      cases hframed with
      | @whole e' hran hfault =>
          have hnext : e.perform (.advance frame) = (.ok (.executed _), e') := hperform
          refine .cons hnext hran.clock ?_
          cases hends : e'.stopped with
          | false =>
              simp only [hends, Bool.false_eq_true, if_false]
              exact ih hends (by rwa [hran.listeners]) _
          | true =>
              simp only [hends, if_true]
              exact framesEnd_of_stop hends hfault frame _ count
      | fault hfaulted => exact framesEnd_of_fault hperform hfaulted before count
      | clock hhost hdue => exact .clock hhost ⟨List.cons_ne_nil _ _, hdue⟩

end Chip8.Proofs.Frames
