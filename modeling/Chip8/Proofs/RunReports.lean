import Chip8.Proofs.TwoRuns

namespace Chip8.Proofs.RunReports

open Chip8.Emulator
open Chip8.Proofs.Stepping
open Chip8.Proofs.TwoRuns

/-- The error of the step that ends a run of some steps, if an error ends it. -/
def raised (e : Emulator) : Nat → Option Error
  | 0 => none
  | count + 1 =>
    match e.step with
    | (.error err, _) => some err
    | (.ok (some _), _) => none
    | (.ok none, e) => raised e count

/-- A run accounts for all that happens in it: an answer is a reason, out of time if the machine is
running and the latched one otherwise, and an error is raised unless it is the latched fault. -/
structure Accounted (e : Emulator) (maxSteps : Int) : Prop where
  reported : ∀ answer, (e.run maxSteps).1 = .ok answer → ∃ reason, answer = some reason ∧
    (reason = .timeout ↔ (e.run maxSteps).2.stopped = false) ∧
    ((e.run maxSteps).2.stopped = true → (e.run maxSteps).2.stopReason = some reason)
  kept : ∀ err, raised e maxSteps.toNat = some err → (e.run maxSteps).1 = .error err ∨
    ∃ f, err = .fault f ∧ (e.run maxSteps).2.fault? = some f

/-- How a run of at least one step ends, and the error that ended it. -/
inductive Finished : Reply (Option StopReason) → Option Error → Prop
  | timeout {e : Emulator} (hstop : e.machine.stop = none) :
      Finished (.ok (some .timeout), e) none
  | stopped {e : Emulator} {s : Stop} (hstop : e.machine.stop = some s) :
      Finished (.ok (some s.reason), e) none
  | fault {e : Emulator} {f : Fault} (hstop : e.machine.stop = some (.faulted f)) :
      Finished (.ok (some f.reason), e) (some (.fault f))
  | lost {e : Emulator} {err : Error} (hmachine : err.isOfMachine = true) (hfault : NotFault err) :
      Finished (.ok e.stopReason, e) (some err)
  | escaped {e : Emulator} {err : Error} (hhost : err.isOfMachine = false) :
      Finished (.error err, e) (some err)

theorem stopReason_of_step {e e' : Emulator} {reason : Option StopReason}
    (h : e.step = (.ok reason, e')) : reason = e'.stopReason := by
  rw [step, stepWith] at h
  split at h
  · cases h
    rfl
  · split at h
    · cases h
    · cases h
      rfl

theorem finished_run {e : Emulator} {count : Nat} (hstart : count = 0 → e.machine.stop = none) :
    Finished (e.runWith notify count) (raised e count) := by
  -- By induction on the steps. Only the last one can end with a reason or an error.
  induction count generalizing e with
  | zero => exact .timeout (hstart rfl)
  | succ count ih =>
      have hstep : e.stepWith notify = e.step := rfl
      rw [runWith, raised, hstep]
      rcases hanswer : e.step with ⟨err | _ | reason, e'⟩
      · cases err with
        | fault f =>
            have hstop := stop_of_stepWith_fault hanswer
            have hreason : e'.stopReason = some f.reason := stopReason_of_stop hstop
            simp only [Error.isOfMachine, hreason, if_true]
            exact .fault hstop
        | programTooLarge _ _ | invalidKey _ | invalidStart _ =>
            refine .lost rfl ?_
            rintro f ⟨⟩
        | _ => exact .escaped rfl
      · have hrunning := stopReason_of_step hanswer
        rw [stopReason, eq_comm, Option.map_eq_none_iff] at hrunning
        exact ih fun _ => hrunning
      · have hstopped := stopReason_of_step hanswer
        rw [stopReason, eq_comm, Option.map_eq_some_iff] at hstopped
        obtain ⟨s, hstop, rfl⟩ := hstopped
        exact .stopped hstop

theorem reason_ne_timeout (s : Stop) : s.reason ≠ .timeout := by
  cases s with
  | halted => rintro ⟨⟩
  | faulted f => cases f <;> rintro ⟨⟩

section

variable {e e' : Emulator} {maxSteps : Int}

/-- An answer that is the reason of the latched stop, of which the error that ended the run is the
fault if there was one. -/
theorem accounted_of_stop {s : Stop} (hrun : e.run maxSteps = (.ok (some s.reason), e'))
    (hstop : e'.machine.stop = some s)
    (hkept : ∀ err, raised e maxSteps.toNat = some err → ∃ f, err = .fault f ∧ s = .faulted f) :
    Accounted e maxSteps := by
  constructor
  case reported =>
    rw [hrun]
    rintro _ ⟨⟩
    refine ⟨_, rfl, iff_of_false (reason_ne_timeout s) ?_, fun _ => stopReason_of_stop hstop⟩
    rw [stopped_of_stop hstop]
    rintro ⟨⟩
  case kept =>
    rw [hrun]
    intro err herr
    obtain ⟨f, rfl, rfl⟩ := hkept err herr
    exact .inr ⟨f, rfl, fault?_of_stop hstop⟩

theorem accounted_of_timeout (hrun : e.run maxSteps = (.ok (some .timeout), e'))
    (hstop : e'.machine.stop = none) (hkept : raised e maxSteps.toNat = none) :
    Accounted e maxSteps := by
  have hrunning := (stopped_eq_false_iff e').mpr hstop
  constructor
  case reported =>
    rw [hrun]
    rintro _ ⟨⟩
    refine ⟨_, rfl, iff_of_true rfl hrunning, ?_⟩
    rw [hrunning]
    rintro ⟨⟩
  case kept =>
    rw [hkept]
    rintro _ ⟨⟩

theorem accounted_of_escape {err : Error} (hrun : e.run maxSteps = (.error err, e'))
    (hkept : raised e maxSteps.toNat = some err) : Accounted e maxSteps := by
  constructor
  case reported =>
    rw [hrun]
    rintro _ ⟨⟩
  case kept =>
    rw [hrun, hkept]
    rintro _ ⟨⟩
    exact .inl rfl

theorem not_accounted_of_lost {err : Error} {answer : Option StopReason}
    (hrun : e.run maxSteps = (.ok answer, e')) (hraised : raised e maxSteps.toNat = some err)
    (hfault : NotFault err) : ¬ Accounted e maxSteps := by
  intro h
  rcases h.kept err hraised with hkept | ⟨f, rfl, -⟩
  · rw [hrun] at hkept
    cases hkept
  · exact hfault f rfl

/-- A run loses an error exactly if its last step raises one of the machine's kind that is no fault;
its answer is then the reason of the latched stop, or none. -/
theorem accounted_iff (hsteps : 1 ≤ maxSteps) :
    (Accounted e maxSteps ↔ ∀ err, raised e maxSteps.toNat = some err →
      err.isOfMachine = true → ∃ f, err = .fault f) ∧
    ∀ err, raised e maxSteps.toNat = some err → err.isOfMachine = true → NotFault err →
      (e.run maxSteps).1 = .ok (e.run maxSteps).2.stopReason := by
  have hfinished : Finished (e.run maxSteps) (raised e maxSteps.toNat) :=
    finished_run fun hzero => by omega
  generalize hrun : e.run maxSteps = reply, hraised : raised e maxSteps.toNat = error? at hfinished
  cases hfinished with
  | timeout hstop =>
      have haccounted := accounted_of_timeout hrun hstop hraised
      exact ⟨iff_of_true haccounted nofun, nofun⟩
  | stopped hstop =>
      have haccounted := accounted_of_stop hrun hstop (by rw [hraised]; exact nofun)
      exact ⟨iff_of_true haccounted nofun, nofun⟩
  | @fault e' f hstop =>
      have haccounted : Accounted e maxSteps := by
        refine accounted_of_stop (s := .faulted f) hrun hstop ?_
        rw [hraised]
        rintro _ ⟨⟩
        exact ⟨f, rfl, rfl⟩
      refine ⟨iff_of_true haccounted ?_, ?_⟩
      · rintro _ ⟨⟩ -
        exact ⟨f, rfl⟩
      · rintro _ ⟨⟩ - hfault
        exact absurd rfl (hfault f)
  | @lost e' err hmachine hfault =>
      refine ⟨iff_of_false (not_accounted_of_lost hrun hraised hfault) ?_, fun _ _ _ _ => rfl⟩
      intro hall
      obtain ⟨f, hf⟩ := hall err rfl hmachine
      exact hfault f hf
  | @escaped e' err hhost =>
      have haccounted := accounted_of_escape hrun hraised
      refine ⟨iff_of_true haccounted ?_, ?_⟩
      · rintro _ ⟨⟩ hmachine
        rw [hhost] at hmachine
        cases hmachine
      · rintro _ ⟨⟩ hmachine
        rw [hhost] at hmachine
        cases hmachine

end

theorem accounted_after_nested_fault : ∃ e,
    Emulator.new {} (.ofList [7]) = .ok e ∧
      let stepping := (e.performAll
        [.listen .displayUpdated { name := "stepper", event := .displayUpdated, action := .step },
          .load [0x60, 0x01, 0xD0, 0x01, 0x00, 0xEE] none]).2
      (1 : Int) ≤ 9 ∧ raised stepping 9 = some (.fault (.stackUnderflow 0x204)) ∧
        Accounted stepping 9 := by
  refine ⟨_, rfl, ?_⟩
  intro stepping
  have hraised : raised stepping 9 = some (.fault (.stackUnderflow 0x204)) := by decide +kernel
  refine ⟨by decide, hraised, (accounted_iff (by decide)).1.mpr ?_⟩
  change ∀ err, raised stepping 9 = some err → _
  rw [hraised]
  rintro _ ⟨⟩ -
  exact ⟨_, rfl⟩

/-- A listener presses a key that there is none of. The run swallows the error and has no reason to
tell. -/
theorem not_accounted_invalid_key : ∃ e,
    Emulator.new {} (.ofList [7]) = .ok e ∧
      let drawing := (e.performAll
        [.listen .displayUpdated
            { name := "x", event := .displayUpdated, action := .key (.int 99) },
          .load [0xD0, 0x01, 0x12, 0x02] none]).2
      drawing.step.1 = .error (.invalidKey (.int 99)) ∧ (drawing.run 5).1 = .ok none ∧
        (drawing.run 5).2.stopReason = none ∧ ¬ Accounted drawing 5 := by
  refine ⟨_, rfl, ?_⟩
  intro drawing
  have hanswer : (drawing.run 5).1 = .ok none := by decide +kernel
  refine ⟨by decide +kernel, hanswer, by decide +kernel, ?_⟩
  intro haccounted
  obtain ⟨reason, hreason, -⟩ := haccounted.reported none hanswer
  cases hreason

end Chip8.Proofs.RunReports
