import Chip8.Proofs.Journals
import Chip8.Proofs.MemoryCells

namespace Chip8.Proofs.Reloading

open Chip8.Emulator
open Chip8.Memory
open Chip8.Proofs.Journals
open Chip8.Proofs.Loading
open Chip8.Proofs.MemoryCells
open Chip8.Proofs.TwoRuns

/-- All bytes of a memory that holds nothing but the font and a program. -/
def image (program : List UInt8) : List UInt8 :=
  font ++ List.replicate 432 0 ++ program.take maxProgramSize ++
    List.replicate (maxProgramSize - program.length) 0

theorem length_image (program : List UInt8) : (image program).length = memorySize := by
  have hfont : font.length = 80 := rfl
  simp only [image, List.length_append, List.length_replicate, List.length_take, hfont, memorySize,
    maxProgramSize, programStart]
  omega

theorem getElem?_image (program : List UInt8) {a : Nat} (ha : a < memorySize) :
    (image program)[a]? = some (if a < programStart then font.getD a 0
      else (program.take maxProgramSize)[a - programStart]?.getD 0) := by
  have hfont : font.length = 80 := rfl
  have hstart : programStart = 512 := rfl
  have hregion : maxProgramSize = 3584 := rfl
  have hsize : memorySize = 4096 := rfl
  have hlength : (program.take maxProgramSize).length = min maxProgramSize program.length :=
    List.length_take
  simp only [image, List.getElem?_append, List.length_append, List.length_replicate, hfont,
    List.getElem?_replicate, List.getD_eq_getElem?_getD]
  generalize program.take maxProgramSize = data at hlength ⊢
  by_cases hbelow : a < programStart
  · rw [if_pos hbelow, if_pos (by omega), if_pos (by omega)]
    by_cases hglyph : a < 80
    · rw [if_pos hglyph, List.getElem?_eq_getElem (by omega), Option.getD_some]
    · rw [if_neg hglyph, if_pos (by omega), List.getElem?_eq_none (by omega), Option.getD_none]
  · rw [if_neg hbelow]
    by_cases hloaded : a - programStart < data.length
    · have hindex : a - (80 + 432) = a - programStart := by omega
      rw [if_pos (by omega), if_neg (by omega), hindex, List.getElem?_eq_getElem hloaded,
        Option.getD_some]
    · rw [if_neg (by omega), if_pos (by omega), List.getElem?_eq_none (by omega), Option.getD_none]

theorem toList_loadProgram (program : List UInt8) :
    (initial.loadProgram program).2.cells.toList = image program := by
  refine List.ext_getElem? fun a => ?_
  by_cases ha : a < memorySize
  · rw [getElem?_cells _ ha, read_loadProgram initial program ha, read_initial ha,
      getElem?_image program ha]
    by_cases hbelow : a < programStart
    · rw [if_pos hbelow, if_pos hbelow]
    · have hpast : font.length ≤ a := Nat.le_trans (by decide) (Nat.le_of_not_lt hbelow)
      rw [if_neg hbelow, if_neg hbelow, List.getD_eq_getElem?_getD, List.getElem?_eq_none hpast,
        Option.getD_none]
  · have hend : memorySize ≤ a := Nat.le_of_not_lt ha
    rw [List.getElem?_eq_none (by rwa [Vector.length_toList]),
      List.getElem?_eq_none (by rwa [length_image])]

/-- The rate, unless a speed is given, the tracing, the random source and the listeners are the same,
and no listener tells the two pasts apart. -/
structure HostAlike (speed : Option SpeedRequest) (e e' : Emulator) : Prop where
  rate : speed = none → e.clock.rate = e'.clock.rate
  tracing : e.tracing = e'.tracing
  random : e.machine.random = e'.machine.random
  listeners : e.listeners = e'.listeners
  indifferent : AllListeners (Indifferent e.notices e'.notices) e.listeners

/-- All that outlives a load is the same, the settings included. -/
structure CarriedAlike (speed : Option SpeedRequest) (e e' : Emulator) : Prop
    extends HostAlike speed e e' where
  timerRate : e.clock.timerRate = e'.clock.timerRate
  strictLoad : e.strictLoad = e'.strictLoad

theorem CarriedAlike.clockFor {speed : Option SpeedRequest} {e other : Emulator}
    (h : CarriedAlike speed e other) {clock : Clock} (hclock : e.clockFor speed = .ok clock) :
    ∃ clock', other.clockFor speed = .ok clock' ∧ clock'.restart = clock.restart := by
  cases speed with
  | none =>
      cases hclock
      refine ⟨other.clock, rfl, ?_⟩
      simp only [Clock.restart, h.rate rfl, h.timerRate]
  | some request =>
      refine ⟨clock, ?_, rfl⟩
      rw [← hclock, Emulator.clockFor, Emulator.clockFor, h.timerRate]

/-- What is left of an emulator that accepted a program. -/
structure Forgets (program : List UInt8) (speed : Option SpeedRequest) (e e' : Emulator) :
    Prop where
  memory : e'.machine.memory.cells.toList = image program
  /-- Nothing of the machine but the random source differs from a new one. -/
  fresh : ∀ {config : Config} {random : RandomSource} {new : Emulator},
    Emulator.new config random = .ok new →
    program.length ≤ maxProgramSize ∨ config.strictLoad = false →
    ∃ new', new.load program none = (.ok (), new') ∧
      e'.machine = { new'.machine with random := e.machine.random } ∧
      e'.clock.last = new'.clock.last ∧ e'.trace = new'.trace
  rate : speed = none → e'.clock.rate = e.clock.rate
  timerRate : e'.clock.timerRate = e.clock.timerRate
  strictLoad : e'.strictLoad = e.strictLoad
  tracing : e'.tracing = e.tracing
  listeners : e'.listeners = e.listeners
  notices : e'.notices = e.notices
  /-- Whatever follows, the answers, the emulator and what is new in its journal are the same for
  any other state that what is carried over does not tell from this one. -/
  alike : ∀ {other : Emulator}, CarriedAlike speed e other →
    ∃ other', other.load program speed = (.ok (), other') ∧
      ∀ calls, (∀ c ∈ calls, Brings (Indifferent e.notices other.notices) c) →
        (e'.performAll calls).1 = (other'.performAll calls).1 ∧
          ∃ base, (e'.performAll calls).2 = after (journal e') base ∧
            (other'.performAll calls).2 = after (journal other') base

theorem performAll_load {program : List UInt8} {speed : Option SpeedRequest} {e e' other : Emulator}
    (h : e.load program speed = (.ok (), e')) (hcarried : CarriedAlike speed e other) :
    ∃ other', other.load program speed = (.ok (), other') ∧
      ∀ calls, (∀ c ∈ calls, Brings (Indifferent e.notices other.notices) c) →
        (e'.performAll calls).1 = (other'.performAll calls).1 ∧
          ∃ base, (e'.performAll calls).2 = after (journal e') base ∧
            (other'.performAll calls).2 = after (journal other') base := by
  obtain ⟨haccepted, clock, hclock, hloaded⟩ := load_ok_iff.mp h
  obtain ⟨clock', hclock', hrestart⟩ := hcarried.clockFor hclock
  rw [hcarried.strictLoad] at haccepted
  refine ⟨loaded other program clock', load_ok_iff.mpr ⟨haccepted, clock', hclock', rfl⟩, ?_⟩
  obtain ⟨log, he'⟩ := loaded_eq e program clock
  obtain ⟨log', hother'⟩ := loaded_eq other program clock'
  rw [← hloaded, he', hother']
  intro calls hcalls
  refine performAll_alike ?_ ?_ hcalls
  · simp only [blank, started_eq, hrestart, hcarried.random, hcarried.strictLoad, hcarried.tracing,
      hcarried.listeners]
  · exact hcarried.indifferent

/-- This holds of any emulator whatever, stopped or running, reached by calls or put together by
hand. -/
theorem forgets_of_load {program : List UInt8} {speed : Option SpeedRequest} {e e' : Emulator}
    (h : e.load program speed = (.ok (), e')) : Forgets program speed e e' := by
  have halike := fun {other} => @performAll_load program speed e e' other h
  obtain ⟨-, clock, hclock, hloaded⟩ := load_ok_iff.mp h
  have htimer := timerRate_clockFor hclock
  obtain ⟨log, he'⟩ := loaded_eq e program clock
  rw [hloaded] at he'
  subst he'
  constructor
  case memory => exact toList_loadProgram program
  case fresh =>
    intro config random new hnew hsize
    obtain ⟨clock', rfl⟩ := new_ok hnew
    obtain ⟨log', hnew'⟩ := loaded_eq _ program clock'
    refine ⟨_, load_ok_iff.mpr ⟨?_, clock', rfl, hnew'⟩, rfl, rfl, rfl⟩
    rintro ⟨hlarge, hstrict⟩
    rcases hsize with hfits | hlax
    · exact absurd hlarge (Nat.not_lt.mpr hfits)
    · exact absurd (hlax.symm.trans hstrict) (by decide)
  case rate =>
    rintro rfl
    cases hclock
    rfl
  case timerRate => exact htimer
  case strictLoad => rfl
  case tracing => rfl
  case listeners => rfl
  case notices => rfl
  case alike => exact halike

theorem forgets_overwritten_font : ∃ e,
    Emulator.new {} (.ofList [7]) = .ok e ∧
      let other := e.addListener .soundOn { name := "beep", event := .soundOn }
      let past := { other with
        machine := { other.machine with
          memory := other.machine.memory.set 0 7
          keypad := other.machine.keypad.press 3
          delay := .set 9
          stop := some (.faulted (.stackUnderflow 0x300)) }
        clock := { other.clock with rate := 20, last := some .zero }
        trace := ⟨#["$0300: 00EE"]⟩
        notices := #[⟨"beep", .soundOn, 0x2FE⟩] }
      let program : List UInt8 := List.replicate 3585 1
      ∃ loaded, past.load program (some (.number 700)) = (.ok (), loaded) ∧
        CarriedAlike (some (.number 700)) past other ∧
        Forgets program (some (.number 700)) past loaded := by
  obtain ⟨e, hnew⟩ : ∃ e, Emulator.new {} (.ofList [7]) = .ok e := ⟨_, rfl⟩
  obtain ⟨clock, he⟩ := new_ok hnew
  have hlax : e.strictLoad = false := by rw [he]
  have hnone : e.listeners = {} := by rw [he]
  refine ⟨e, hnew, ?_⟩
  intro other past program
  have haccepted : ¬ (program.length > maxProgramSize ∧ past.strictLoad) := by
    rintro ⟨-, hstrict⟩
    exact absurd (hlax.symm.trans hstrict) (by decide)
  have hload := load_ok_iff.mpr
    ⟨haccepted, _, (rfl : past.clockFor (some (.number 700)) = .ok _), rfl⟩
  have hlisteners : AllListeners (Indifferent past.notices other.notices) past.listeners := by
    refine AllListeners.add ?_ .soundOn (indifferent_of_action nofun)
    rw [hnone]
    exact .empty
  exact ⟨_, hload, ⟨⟨nofun, rfl, rfl, rfl, hlisteners⟩, rfl, rfl⟩, forgets_of_load hload⟩

theorem hostAlike_new (config config' : Config) {random : RandomSource} {e e' : Emulator}
    (h : Emulator.new config random = .ok e) (h' : Emulator.new config' random = .ok e')
    (hrate : e.clock.rate = e'.clock.rate) (htracing : config.tracing = config'.tracing) :
    HostAlike none e e' := by
  obtain ⟨clock, rfl⟩ := new_ok h
  obtain ⟨clock', rfl⟩ := new_ok h'
  exact ⟨fun _ => hrate, htracing, rfl, rfl, .empty⟩

/-- The settings have to be alike: a strict emulator refuses later what another one cuts, and timers
go on at the rate that they were given. -/
theorem settings_outlive_load : ∃ plain strict slow,
    Emulator.new {} (.ofList [7]) = .ok plain ∧
      Emulator.new { strictLoad := true } (.ofList [7]) = .ok strict ∧
      Emulator.new { timerRate := .int 30 } (.ofList [7]) = .ok slow ∧
      HostAlike none plain strict ∧ HostAlike none plain slow ∧
      let program : List UInt8 := [0x60, 0x05, 0xF0, 0x15, 0x12, 0x04]
      let large : List HostCall := [.load (List.replicate 3585 0) none]
      let eighth : List HostCall := [.step, .step, .advance (.ofDecimal false 125 (-3))]
      ∃ plain' strict' slow',
        plain.load program none = (.ok (), plain') ∧ strict.load program none = (.ok (), strict') ∧
          slow.load program none = (.ok (), slow') ∧
          (plain'.performAll large).1 ≠ (strict'.performAll large).1 ∧
          (plain'.performAll eighth).2.machine.delay ≠
            (slow'.performAll eighth).2.machine.delay := by
  refine ⟨_, _, _, rfl, rfl, rfl, hostAlike_new {} { strictLoad := true } rfl rfl rfl rfl,
    hostAlike_new {} { timerRate := .int 30 } rfl rfl rfl rfl, ?_⟩
  intro program large eighth
  refine ⟨_, _, _, rfl, rfl, rfl, ?_, ?_⟩
  · decide +kernel
  · decide +kernel

end Chip8.Proofs.Reloading
