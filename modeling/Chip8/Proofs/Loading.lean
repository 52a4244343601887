import Chip8.Proofs.TwoRuns

namespace Chip8.Proofs.Loading

open Chip8.Emulator
open Chip8.Proofs.TwoRuns

theorem new_ok {config : Config} {random : RandomSource} {e : Emulator}
    (h : Emulator.new config random = .ok e) :
    ∃ clock, e = {
      machine := { random }
      clock
      strictLoad := config.strictLoad
      tracing := config.tracing } := by
  simp only [Emulator.new, bind, Except.bind] at h
  split at h
  · cases h
  · split at h
    · cases h
    · cases h
      exact ⟨_, rfl⟩

def started (e : Emulator) (program : List UInt8) : Machine :=
  { e.reset.machine with memory := (Memory.initial.loadProgram program).2 }

theorem started_eq (e : Emulator) (program : List UInt8) :
    started e program =
      { random := e.machine.random, memory := (Memory.initial.loadProgram program).2 } :=
  rfl

/-- The emulator after a program was accepted, with a clock at rest. -/
def loaded (e : Emulator) (program : List UInt8) (clock : Clock) : Emulator :=
  { warned e program with
    machine := started e program
    clock := clock.restart
    trace := {} }.note .info
      ("Loaded " ++ toString (program.take maxProgramSize).length ++ "-byte program at $200 ("
        ++ toString clock.rate ++ " instructions/s)")

theorem loaded_eq (e : Emulator) (program : List UInt8) (clock : Clock) :
    ∃ log, loaded e program clock = { e with
      machine := started e program
      clock := clock.restart
      trace := {}
      log } := by
  rw [loaded, warned]
  split
  · exact ⟨_, rfl⟩
  · exact ⟨_, rfl⟩

theorem load_eq (e : Emulator) (program : List UInt8) (speed : Option SpeedRequest) :
    e.load program speed =
      if program.length > maxProgramSize ∧ e.strictLoad then
        (.error (.programTooLarge program.length maxProgramSize), e)
      else
        match e.clockFor speed with
        | .error err => (.error err, warned e program)
        | .ok clock => (.ok (), loaded e program clock) := by
  simp only [load]
  split
  · rfl
  · by_cases hlarge : program.length > maxProgramSize
    · simp only [loaded, warned, if_pos hlarge]
      rfl
    · simp only [loaded, warned, if_neg hlarge]
      rfl

theorem notFault_ofInt {n : Int} {value : HostValue} {err : Error}
    (h : Speed.ofInt n value = .error err) : NotFault err := by
  rw [Speed.ofInt] at h
  split at h
  · cases h
    exact nofun
  · cases h

theorem notFault_parse {request : SpeedRequest} {err : Error}
    (h : Speed.parse request = .error err) : NotFault err := by
  cases request with
  | number n => exact notFault_ofInt h
  | flag b => exact notFault_ofInt h
  | text s =>
      simp only [Speed.parse] at h
      split at h
      · cases h
      · split at h
        · exact notFault_ofInt h
        · cases h
          exact nofun

theorem notFault_clockFor {e : Emulator} {speed : Option SpeedRequest} {err : Error}
    (h : e.clockFor speed = .error err) : NotFault err := by
  cases speed with
  | none => cases h
  | some request =>
      simp only [clockFor, bind, Except.bind] at h
      split at h
      · rename_i hparse
        cases h
        exact notFault_parse hparse
      · simp only [Clock.new] at h
        split at h
        · cases h
          exact nofun
        · cases h

theorem timerRate_clockFor {e : Emulator} {speed : Option SpeedRequest} {clock : Clock}
    (h : e.clockFor speed = .ok clock) : clock.timerRate = e.clock.timerRate := by
  cases speed with
  | none =>
      cases h
      rfl
  | some request =>
      simp only [clockFor, bind, Except.bind] at h
      split at h
      · cases h
      · simp only [Clock.new] at h
        split at h
        · cases h
        · cases h
          rfl

theorem load_cases (e : Emulator) (program : List UInt8) (speed : Option SpeedRequest) :
    (∃ err log, NotFault err ∧ e.load program speed = (.error err, { e with log })) ∨
      ∃ clock, e.clockFor speed = .ok clock ∧
        e.load program speed = (.ok (), loaded e program clock) := by
  rw [load_eq]
  split
  · exact .inl ⟨.programTooLarge _ _, e.log, nofun, rfl⟩
  · split
    · rename_i err hclock
      refine .inl ⟨err, (warned e program).log, notFault_clockFor hclock, ?_⟩
      rw [warned]
      split <;> rfl
    · exact .inr ⟨_, ‹_›, rfl⟩

theorem load_ok_iff {e e' : Emulator} {program : List UInt8} {speed : Option SpeedRequest} :
    e.load program speed = (.ok (), e') ↔
      ¬ (program.length > maxProgramSize ∧ e.strictLoad) ∧
        ∃ clock, e.clockFor speed = .ok clock ∧ loaded e program clock = e' := by
  rw [load_eq]
  split
  · rename_i hrefused
    exact iff_of_false nofun fun h => h.1 hrefused
  · rename_i haccepted
    split
    · rename_i hclock
      refine iff_of_false nofun ?_
      rintro ⟨-, clock, hok, -⟩
      rw [hclock] at hok
      cases hok
    · rename_i clock hclock
      rw [hclock]
      simp [haccepted]

theorem load_of_lax {e : Emulator} (hlax : e.strictLoad = false) (program : List UInt8) :
    e.load program none = (.ok (), loaded e program e.clock) := by
  refine load_ok_iff.mpr ⟨?_, e.clock, rfl, rfl⟩
  rintro ⟨-, hstrict⟩
  exact absurd (hlax.symm.trans hstrict) nofun

theorem memory_loaded (e : Emulator) (program : List UInt8) (clock : Clock) :
    (loaded e program clock).machine.memory = (Memory.initial.loadProgram program).2 := by
  obtain ⟨log, hloaded⟩ := loaded_eq e program clock
  rw [hloaded]
  rfl

theorem stopped_loaded (e : Emulator) (program : List UInt8) (clock : Clock) :
    (loaded e program clock).stopped = false := by
  obtain ⟨log, hloaded⟩ := loaded_eq e program clock
  rw [hloaded]
  rfl

theorem listeners_warned (e : Emulator) (program : List UInt8) :
    (warned e program).listeners = e.listeners := by
  rw [warned]
  split <;> rfl

theorem listeners_load (e : Emulator) (program : List UInt8) (speed : Option SpeedRequest) :
    (e.load program speed).2.listeners = e.listeners := by
  rw [load_eq]
  split
  · rfl
  · split
    · exact listeners_warned e program
    · exact listeners_warned e program

end Chip8.Proofs.Loading
