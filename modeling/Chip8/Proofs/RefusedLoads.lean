import Chip8.Proofs.TraceAndLog

namespace Chip8.Proofs.RefusedLoads

open Chip8.Emulator
open Chip8.Proofs.Loading
open Chip8.Proofs.TraceAndLog
open Chip8.Proofs.TwoRuns

inductive SpeedError : Error → Prop
  | unknown (text : String) : SpeedError (.unknownSpeed text)
  | notPositive (value : HostValue) : SpeedError (.speedNotPositive value)

inductive Judged : Except Error Speed → Prop
  | refused {err : Error} (h : SpeedError err) : Judged (.error err)
  | positive {speed : Speed} (h : 0 < speed.value) : Judged (.ok speed)

theorem judged_ofInt (n : Int) (value : HostValue) : Judged (Speed.ofInt n value) := by
  rw [Speed.ofInt]
  split
  · exact .refused (.notPositive value)
  · apply Judged.positive
    rw [Speed.value]
    omega

theorem rate_pos (p : Preset) : 0 < p.rate := by
  cases p <;> decide

theorem judged_parse (request : SpeedRequest) : Judged (Speed.parse request) := by
  cases request with
  | number n => exact judged_ofInt n _
  | flag b => exact judged_ofInt _ _
  | text s =>
      rw [Speed.parse]
      split
      · exact .positive (rate_pos _)
      · split
        · exact judged_ofInt _ _
        · exact .refused (.unknown s)

theorem clockFor_some (e : Emulator) (request : SpeedRequest) :
    e.clockFor (some request) = (Speed.parse request).map fun speed =>
      { rate := speed.value, timerRate := e.clock.timerRate } := by
  have hjudged := judged_parse request
  rw [clockFor]
  generalize Speed.parse request = answer at hjudged ⊢
  cases hjudged with
  | refused h => rfl
  | @positive speed h =>
      have hpositive : (Number.int speed.value).isNonpositive = false := by
        simp only [Number.isNonpositive, decide_eq_false_iff_not]
        omega
      simp [Clock.new, hpositive, bind, Except.bind, pure, Except.pure, Except.map]

theorem clockFor_error_iff {e : Emulator} {speed : Option SpeedRequest} {err : Error} :
    e.clockFor speed = .error err ↔
      ∃ request, speed = some request ∧ Speed.parse request = .error err := by
  cases speed with
  | none => simp [clockFor]
  | some request =>
      simp only [clockFor_some, Option.some.injEq, exists_eq_left']
      cases Speed.parse request <;> simp [Except.map]

/-- Why a load is refused. -/
inductive Refused (e : Emulator) (program : List UInt8) (speed : Option SpeedRequest) :
    Error → Prop
  | size (h : e.strictLoad = true ∧ 3584 < program.length) :
      Refused e program speed (.programTooLarge program.length 3584)
  | speed (haccepted : ¬ (e.strictLoad = true ∧ 3584 < program.length)) {request : SpeedRequest}
      (hgiven : speed = some request) {err : Error} (hparse : Speed.parse request = .error err)
      (herr : SpeedError err) : Refused e program speed err

/-- What a load that is refused leaves behind. -/
structure Harmless (e : Emulator) (program : List UInt8) (speed : Option SpeedRequest) : Prop where
  refused_iff : ∀ err, (e.load program speed).1 = .error err ↔ Refused e program speed err
  unchanged : ∀ err, (e.load program speed).1 = .error err →
    ∃ log, (e.load program speed).2 = { e with log }
  unnoticed : ∀ err, (e.load program speed).1 = .error err →
    ∀ calls, ((e.load program speed).2.performAll calls).1 = (e.performAll calls).1

theorem load_error_iff {e : Emulator} {program : List UInt8} {speed : Option SpeedRequest}
    {err : Error} : (e.load program speed).1 = .error err ↔ Refused e program speed err := by
  rw [load_eq]
  split
  · rename_i hrefused
    constructor
    · rintro ⟨⟩
      exact .size hrefused.symm
    · intro h
      cases h with
      | size => rfl
      | speed haccepted => exact absurd hrefused.symm haccepted
  · rename_i haccepted
    have hspeed : Refused e program speed err ↔ e.clockFor speed = .error err := by
      rw [clockFor_error_iff]
      constructor
      · intro h
        cases h with
        | size h => exact absurd h.symm haccepted
        | speed _ hgiven hparse => exact ⟨_, hgiven, hparse⟩
      · rintro ⟨request, hgiven, hparse⟩
        have hjudged := judged_parse request
        rw [hparse] at hjudged
        cases hjudged with
        | refused h => exact .speed (fun h => haccepted h.symm) hgiven hparse h
    rw [hspeed]
    cases e.clockFor speed <;> simp

theorem unchanged_of_error {e : Emulator} {program : List UInt8} {speed : Option SpeedRequest}
    {err : Error} (h : (e.load program speed).1 = .error err) :
    ∃ log, (e.load program speed).2 = { e with log } := by
  rcases load_cases e program speed with ⟨err', log, -, hrefused⟩ | ⟨clock, -, hloaded⟩
  · rw [hrefused]
    exact ⟨log, rfl⟩
  · rw [hloaded] at h
    cases h

/-- The log is all that a refused load changes, and nothing reads it. -/
theorem refused_load_harmless (e : Emulator) (program : List UInt8) (speed : Option SpeedRequest) :
    Harmless e program speed where
  refused_iff _ := load_error_iff
  unchanged _ := unchanged_of_error
  unnoticed err h calls := by
    obtain ⟨log, hunchanged⟩ := unchanged_of_error h
    have hbeside : Beside e (e.load program speed).2 := by
      rw [hunchanged]
      exact .mk e.trace log
    exact (agree_performAll beside_simulation (fun c _ => by cases c <;> trivial) hbeside).1.symm

end Chip8.Proofs.RefusedLoads
