import Chip8.Proofs.Batches
import Chip8.Proofs.RunReports
import Chip8.Proofs.Stopped

namespace Chip8.Proofs.RunComposition

open Chip8.Emulator
open Chip8.Proofs.Batches
open Chip8.Proofs.NoteTaking
open Chip8.Proofs.RunReports
open Chip8.Proofs.Stepping
open Chip8.Proofs.Stopped

/-- After a run of `m` steps that is out of time a run of `n` steps ends as one of `m + n` does, and
for any other run of `m` steps it makes no difference if it may take `n` more. -/
structure Composes (e : Emulator) (m n : Int) : Prop where
  further : (e.run m).1 = .ok (some .timeout) → (e.run m).2.run n = e.run (m + n)
  ended : (e.run m).1 ≠ .ok (some .timeout) → e.run (m + n) = e.run m

def ReportsFault (reply : Reply (Option StopReason)) : Prop :=
  reply.1 = .ok (some .illegal) ∨ reply.1 = .ok (some .stack)

/-- One of the next steps raises an error. -/
def Raises (e : Emulator) (count : Nat) : Prop :=
  ∃ k < count, ∃ err, (stepped e k).step.1 = .error err

/-- A run is some single steps, each of which finds the machine running and so executes an
instruction. Only a stop makes them fewer than the run may take. -/
structure Stepwise (e : Emulator) (maxSteps : Int) : Prop where
  steps : ∃ k : Nat, (k : Int) ≤ maxSteps ∧ (∀ j < k, (stepped e j).stopped = false) ∧
    ((stepped e k).stopped = false → (k : Int) = maxSteps) ∧
    e.run maxSteps = (.ok (some ((stepped e k).stopReason.getD .timeout)), stepped e k)
  fault : ReportsFault (e.run maxSteps) ↔ e.fault?.isSome = true ∨ Raises e maxSteps.toNat

theorem stopReason_ne_timeout (e : Emulator) : e.stopReason ≠ some .timeout := by
  rw [stopReason]
  intro h
  obtain ⟨s, -, hs⟩ := Option.map_eq_some_iff.mp h
  exact reason_ne_timeout s hs

theorem runWith_succ_cases (e : Emulator) :
    (∃ reply : Reply (Option StopReason), reply.1 ≠ .ok (some .timeout) ∧
      ∀ count, e.runWith notify (count + 1) = reply) ∨
    ∃ e' : Emulator, ∀ count, e.runWith notify (count + 1) = e'.runWith notify count := by
  have hstep : e.stepWith notify = e.step := rfl
  rcases hanswer : e.step with ⟨err | _ | reason, e'⟩
  · cases hmachine : err.isOfMachine with
    | true =>
        refine .inl ⟨(.ok e'.stopReason, e'), ?_, ?_⟩
        · intro htimeout
          exact stopReason_ne_timeout e' (Except.ok.inj htimeout)
        · intro count
          simp only [runWith, hstep, hanswer, hmachine, if_true]
    | false =>
        refine .inl ⟨(.error err, e'), by rintro ⟨⟩, ?_⟩
        intro count
        simp only [runWith, hstep, hanswer, hmachine, Bool.false_eq_true, if_false]
  · refine .inr ⟨e', fun count => ?_⟩
    simp only [runWith, hstep, hanswer]
  · refine .inl ⟨(.ok (some reason), e'), ?_, ?_⟩
    · rw [stopReason_of_step hanswer]
      intro htimeout
      exact stopReason_ne_timeout e' (Except.ok.inj htimeout)
    · intro count
      simp only [runWith, hstep, hanswer]

theorem runWith_further {e e' : Emulator} {m : Nat}
    (h : e.runWith notify m = (.ok (some .timeout), e')) (n : Nat) :
    e.runWith notify (m + n) = e'.runWith notify n := by
  induction m generalizing e with
  | zero =>
      cases h
      rw [Nat.zero_add]
  | succ m ih =>
      rw [Nat.add_right_comm]
      rcases runWith_succ_cases e with ⟨reply, hends, hruns⟩ | ⟨next, hruns⟩
      · rw [hruns] at h
        exact absurd (congrArg Prod.fst h) hends
      · rw [hruns] at h ⊢
        exact ih h

theorem runWith_ended {e : Emulator} {m : Nat}
    (h : (e.runWith notify m).1 ≠ .ok (some .timeout)) (n : Nat) :
    e.runWith notify (m + n) = e.runWith notify m := by
  induction m generalizing e with
  | zero => exact absurd rfl h
  | succ m ih =>
      rw [Nat.add_right_comm]
      rcases runWith_succ_cases e with ⟨reply, hends, hruns⟩ | ⟨next, hruns⟩
      · rw [hruns, hruns]
      · rw [hruns] at h ⊢
        rw [hruns]
        exact ih h

theorem composes {m n : Int} (hm : 1 ≤ m) (hn : 1 ≤ n) (e : Emulator) : Composes e m n := by
  have hsum : (m + n).toNat = m.toNat + n.toNat := Int.toNat_add (by omega) (by omega)
  constructor
  case further =>
    intro htimeout
    simp only [run] at htimeout ⊢
    rw [hsum]
    exact (runWith_further (Prod.ext htimeout rfl) n.toNat).symm
  case ended =>
    intro hended
    simp only [run] at hended ⊢
    rw [hsum]
    exact runWith_ended hended n.toNat

theorem running_of_lt_executed {e : Emulator} {count k : Nat} (h : k < executed e count) :
    (stepped e k).stopped = false := by
  induction count generalizing e k with
  | zero => cases h
  | succ count ih =>
      rw [executed] at h
      cases hstop : e.stopped with
      | true =>
          rw [if_pos hstop] at h
          cases h
      | false =>
          rw [if_neg (by rw [hstop]; decide)] at h
          cases k with
          | zero => exact hstop
          | succ k =>
              rw [stepped]
              exact ih (Nat.lt_of_succ_lt_succ h)

theorem executed_le (e : Emulator) (count : Nat) : executed e count ≤ count := by
  induction count generalizing e with
  | zero => exact Nat.le_refl 0
  | succ count ih =>
      rw [executed]
      split
      · exact Nat.zero_le _
      · exact Nat.succ_le_succ (ih e.step.2)

theorem executed_of_running {e : Emulator} {count : Nat}
    (h : (stepped e (executed e count)).stopped = false) : executed e count = count := by
  induction count generalizing e with
  | zero => rfl
  | succ count ih =>
      rw [executed] at h ⊢
      cases hstop : e.stopped with
      | true =>
          rw [if_pos hstop] at h
          exact absurd (hstop.symm.trans h) (by decide)
      | false =>
          rw [hstop] at h
          exact congrArg (· + 1) (ih h)

theorem stepped_of_stopped {e : Emulator} {reason : StopReason}
    (hstop : e.stopReason = some reason) (count : Nat) : stepped e count = e := by
  induction count with
  | zero => rfl
  | succ count ih =>
      have hstep : e.step = (.ok (some reason), e) := stepWith_stopped notify hstop
      rw [stepped, hstep]
      exact ih

theorem not_raises_of_stopped {e : Emulator} {reason : StopReason}
    (hstop : e.stopReason = some reason) (count : Nat) : ¬ Raises e count := by
  rintro ⟨k, -, err, herr⟩
  have hstep : e.step = (.ok (some reason), e) := stepWith_stopped notify hstop
  rw [stepped_of_stopped hstop, hstep] at herr
  cases herr

theorem raises_succ_iff (e : Emulator) (count : Nat) :
    Raises e (count + 1) ↔ (∃ err, e.step.1 = .error err) ∨ Raises e.step.2 count := by
  constructor
  · rintro ⟨_ | k, hk, herr⟩
    · exact .inl herr
    · exact .inr ⟨k, Nat.lt_of_succ_lt_succ hk, herr⟩
  · rintro (herr | ⟨k, hk, herr⟩)
    · exact ⟨0, Nat.succ_pos count, herr⟩
    · exact ⟨k + 1, Nat.succ_lt_succ hk, herr⟩

theorem reportsFault_reason_iff (s : Stop) (e : Emulator) :
    ReportsFault (.ok (some s.reason), e) ↔ s.fault?.isSome = true := by
  cases s with
  | halted => simp [ReportsFault, Stop.reason, Stop.fault?]
  | faulted f => cases f <;> simp [ReportsFault, Stop.reason, Stop.fault?, Fault.reason]

theorem reportsFault_iff_raises {e : Emulator} (hstop : e.stopped = false)
    (hrecording : Recording e.listeners) (count : Nat) :
    ReportsFault (e.runWith notify count) ↔ Raises e count := by
  -- By induction on the steps: the run ends with the first step that raises a fault, and no step
  -- after a halt raises one.
  induction count generalizing e with
  | zero => simp [ReportsFault, Raises, runWith]
  | succ count ih =>
      have hended := ended_record hstop hrecording
      rw [raises_succ_iff, step, runWith, stepWith, hstop]
      generalize e.executeWith notify = reply at hended ⊢
      cases hended with
      | @running e' hran hnext =>
          have hreason : e'.stopReason = none := stopReason_of_running hnext
          have hrest := ih ((stopped_eq_false_iff e').mpr hnext) (by rwa [hran.listeners])
          simpa [hreason] using hrest
      | @halted e' hran hhalted =>
          have hreason : e'.stopReason = some .halt := stopReason_of_stop hhalted
          simp [hreason, ReportsFault, not_raises_of_stopped hreason count]
      | @faulted e' f hran hfaulted =>
          have hreason : e'.stopReason = some f.reason := stopReason_of_stop hfaulted
          have hreports := reportsFault_reason_iff (.faulted f) e'
          simpa [hreason, Error.isOfMachine, Stop.fault?, Stop.reason] using hreports

theorem stepwise_of_stopped {e : Emulator} {s : Stop} (hstop : e.machine.stop = some s)
    {maxSteps : Int} (hsteps : 1 ≤ maxSteps) : Stepwise e maxSteps := by
  have hreason : e.stopReason = some s.reason := stopReason_of_stop hstop
  have hrun : e.run maxSteps = (.ok (some s.reason), e) := by
    rw [run, runWith_stopped notify hreason, if_pos hsteps]
  constructor
  case steps =>
    refine ⟨0, by omega, fun j hj => absurd hj (Nat.not_lt_zero j), ?_, ?_⟩
    · intro hrunning
      exact absurd ((stopped_of_stop hstop).symm.trans hrunning) (by decide)
    · rw [hrun, stepped, hreason, Option.getD_some]
  case fault =>
    have hquiet := not_raises_of_stopped hreason maxSteps.toNat
    rw [hrun, reportsFault_reason_iff, fault?_of_stop hstop]
    exact (or_iff_left hquiet).symm

theorem stepwise_of_running {e : Emulator} (hstop : e.stopped = false)
    (hrecording : Recording e.listeners) {maxSteps : Int} (hsteps : 1 ≤ maxSteps) :
    Stepwise e maxSteps := by
  have hle := executed_le e maxSteps.toNat
  constructor
  case steps =>
    refine ⟨executed e maxSteps.toNat, by omega, fun j hj => running_of_lt_executed hj, ?_, ?_⟩
    · intro hrunning
      have hall := executed_of_running hrunning
      omega
    · have htogether := run_batch hstop hrecording 0 maxSteps.toNat
      rw [run]
      generalize stepped e (executed e maxSteps.toNat) = e',
        e.runWith notify maxSteps.toNat = run,
        e.batchWith notify 0 maxSteps.toNat = batch at htogether ⊢
      cases htogether with
      | timeout _ hnext => rw [stopReason_of_running hnext, Option.getD_none]
      | halt _ hhalted => rw [stopReason_of_stop hhalted, Option.getD_some]; rfl
      | fault _ hfaulted => rw [stopReason_of_stop hfaulted, Option.getD_some]; rfl
  case fault =>
    have hnone := fault?_of_running ((stopped_eq_false_iff e).mp hstop)
    rw [hnone, Option.isSome_none, run, reportsFault_iff_raises hstop hrecording]
    simp

/-- Runs compose whatever state they start from and whatever listeners do, and under listeners that
only take note each of them is some single steps. -/
theorem run_composes (e : Emulator) {m n : Int} (hm : 1 ≤ m) (hn : 1 ≤ n) :
    Composes e m n ∧ (Recording e.listeners → Stepwise e m) := by
  refine ⟨composes hm hn e, fun hrecording => ?_⟩
  cases hstop : e.machine.stop with
  | none => exact stepwise_of_running ((stopped_eq_false_iff e).mpr hstop) hrecording hm
  | some s => exact stepwise_of_stopped hstop hm

theorem run_composes_into_fault : ∃ e,
    Emulator.new {} (.ofList [7]) = .ok e ∧
      let loaded := (e.performAll [.load [0x60, 0x01, 0x61, 0x02, 0x00, 0xEE] none]).2
      ((1 : Int) ≤ 2 ∧ (1 : Int) ≤ 1) ∧ Composes loaded 2 1 ∧ Stepwise loaded 2 ∧
        (loaded.run 2).1 = .ok (some .timeout) ∧ (loaded.run (2 + 1)).1 = .ok (some .stack) := by
  refine ⟨_, rfl, ?_⟩
  intro loaded
  have hsilent : Recording loaded.listeners := recording_of_isEmpty (by decide +kernel)
  obtain ⟨hcomposes, hstepwise⟩ := run_composes loaded (m := 2) (n := 1) (by decide) (by decide)
  exact ⟨by decide, hcomposes, hstepwise hsilent, by decide +kernel, by decide +kernel⟩

/-- A machine that has stopped with a fault reports it again, while its steps raise it no more. -/
theorem faulted_run_raises_nothing : ∃ e,
    Emulator.new {} (.ofList [7]) = .ok e ∧
      let faulted := (e.performAll [.load [0xFF, 0xFF] none, .step]).2
      faulted.listeners.registered = [] ∧ (faulted.run 1).1 = .ok (some .illegal) ∧
        ¬ (ReportsFault (faulted.run 1) ↔ Raises faulted 1) := by
  refine ⟨_, rfl, ?_⟩
  intro faulted
  have hreason : faulted.stopReason = some .illegal := by decide +kernel
  have hrun : (faulted.run 1).1 = .ok (some .illegal) := by decide +kernel
  refine ⟨List.isEmpty_iff.mp (by decide +kernel), hrun, ?_⟩
  intro h
  exact not_raises_of_stopped hreason 1 (h.mp (.inl hrun))

end Chip8.Proofs.RunComposition
