import Chip8.Proofs.Frames

namespace Chip8.Proofs.InstructionCounts

open Chip8.CommandLine
open Chip8.Emulator
open Chip8.Proofs.Frames
open Chip8.Proofs.History
open Chip8.Proofs.Loading
open Chip8.Proofs.NoteTaking
open Chip8.Proofs.Stepping
open Chip8.Proofs.TwoRuns

def attended (e : Emulator) : Emulator :=
  Event.all.foldl (fun (e : Emulator) event => e.addListener event { name := event.name, event }) e

def readied (o : RunOptions) (program : List UInt8) (e : Emulator) : Emulator :=
  let e := loaded (attended e) program e.clock
  { e with machine := { e.machine with keypad := o.keys.foldl Keypad.press e.machine.keypad } }

def clockAt (rate : Nat) : Clock :=
  { rate, timerRate := .int 60 }

theorem recording_attended {e : Emulator} (hnone : e.listeners = {}) :
    Recording (attended e).listeners := by
  have hempty : AllListeners (fun l => l.action = .record) e.listeners := by
    rw [hnone]
    exact .empty
  have hdraw := hempty.add .displayUpdated (l := ⟨"display_updated", .displayUpdated, .record⟩) rfl
  have hon := hdraw.add .soundOn (l := ⟨"sound_on", .soundOn, .record⟩) rfl
  have hoff := hon.add .soundOff (l := ⟨"sound_off", .soundOff, .record⟩) rfl
  exact hoff.registered

section

variable {e : Emulator} (o : RunOptions) (program : List UInt8)

theorem load_attended (hlax : e.strictLoad = false) :
    (attended e).load program none = (.ok (), loaded (attended e) program e.clock) :=
  load_of_lax (e := attended e) hlax program

theorem clock_readied (e : Emulator) : (readied o program e).clock = e.clock.restart := by
  obtain ⟨log, hloaded⟩ := loaded_eq (attended e) program e.clock
  rw [readied, hloaded]

theorem readied_running (hnone : e.listeners = {}) : (readied o program e).stopped = false ∧
    Recording (readied o program e).listeners := by
  have hlisteners : (readied o program e).listeners = (attended e).listeners := by
    obtain ⟨log, hloaded⟩ := loaded_eq (attended e) program e.clock
    rw [readied, hloaded]
  rw [hlisteners]
  exact ⟨stopped_loaded (attended e) program e.clock, recording_attended hnone⟩

end

section

variable {o : RunOptions} {program : List UInt8} {seed : Int}

theorem prepare_running {e : Emulator} (h : prepare o program seed = .ok e) :
    e.stopped = false ∧ Recording e.listeners := by
  simp only [prepare, bind, Except.bind] at h
  split at h
  · cases h
  · split at h
    · cases h
    · split at h
      · cases h
      · rename_i e₀ hnew
        obtain ⟨hnone, hlax⟩ : e₀.listeners = {} ∧ e₀.strictLoad = false := by
          obtain ⟨clock, rfl⟩ := new_ok hnew
          exact ⟨rfl, rfl⟩
        have hload := load_attended program hlax
        rw [attended] at hload
        rw [hload] at h
        cases h
        exact readied_running o program hnone

theorem new_clockAt {rate : Nat} (hpos : 0 < rate) (tracing : Bool) (random : RandomSource) :
    Emulator.new { speed := .number rate, tracing } random =
      .ok { machine := { random }, clock := clockAt rate, strictLoad := false, tracing } := by
  have hparse : Speed.parse (.number rate) = .ok (.rate rate) := by
    rw [Speed.parse, Speed.ofInt, if_neg (by omega), Int.toNat_natCast]
  have hclock : Clock.new (.int rate) (.int 60) = .ok (clockAt rate) := by
    have hpositive : Number.isNonpositive (.int rate) = false := by
      rw [Number.isNonpositive, decide_eq_false_iff_not]
      omega
    rw [Clock.new, hpositive]
    rfl
  simp only [Emulator.new, hparse, bind, Except.bind, Speed.value, hclock]
  rfl

theorem prepare_given {speed : Speed} (hspeed : o.speed = .value speed) (hpos : 0 < speed.value)
    {given : Int} (hseed : o.seed.getD (.value seed) = .value given) :
    prepare o program seed = .ok (readied o program {
      machine := { random := .ofSeed given }
      clock := clockAt speed.value
      strictLoad := false
      tracing := o.trace }) := by
  have hnew := new_clockAt hpos o.trace (.ofSeed given)
  simp only [prepare, hspeed, hseed, Given.orError, bind, Except.bind, hnew]
  rw [← attended, load_attended program rfl]
  rfl

theorem seed_given (hseed : o.seed ≠ some .nothing) :
    ∃ given, o.seed.getD (.value seed) = .value given := by
  cases hchosen : o.seed with
  | none => exact ⟨seed, rfl⟩
  | some chosen =>
      cases chosen with
      | value given => exact ⟨given, rfl⟩
      | nothing => exact absurd hchosen hseed

end

theorem mapM_of_total {α β : Type} {f : α → Except Error β} (hf : ∀ a, ∃ b, f a = .ok b)
    (as : List α) : ∃ bs, as.mapM f = .ok bs := by
  induction as with
  | nil => exact ⟨[], rfl⟩
  | cons a as ih =>
      obtain ⟨b, hb⟩ := hf a
      obtain ⟨bs, hbs⟩ := ih
      exact ⟨b :: bs, by rw [List.mapM_cons, hb, hbs]; rfl⟩

theorem picture_given {o : RunOptions} {on off : String} (hon : o.on = .value on)
    (hoff : o.off = .value off) (e : Emulator) : ∃ text, picture o e = .ok text := by
  have hpixel : ∀ p : Bool × Nat, ∃ text, pixelText o p.2 p.1 = .ok text := by
    rintro ⟨_ | _, column⟩
    · exact ⟨off, by rw [pixelText, hoff]; rfl⟩
    · exact ⟨on, by rw [pixelText, hon]; rfl⟩
  have hrow : ∀ row, ∃ text, rowText o row = .ok text := by
    intro row
    obtain ⟨texts, htexts⟩ := mapM_of_total hpixel row.zipIdx
    exact ⟨String.join texts, by rw [rowText, htexts]; rfl⟩
  obtain ⟨rows, hrows⟩ := mapM_of_total hrow e.machine.screen.rows
  exact ⟨_, by rw [picture, hrows]; rfl⟩

theorem picture_line {o : RunOptions} {e : Emulator} {text : String} (h : picture o e = .ok text) :
    ∃ lines, text = lines ++ "\n" := by
  simp only [picture, bind, Except.bind] at h
  split at h
  · cases h
  · cases h
    exact ⟨_, rfl⟩

/-- The last line of a report that tells some number of instructions. -/
def finalLine (o : RunOptions) (e : Emulator) (n : Nat) : String :=
  match e.machine.stop with
  | none =>
    "Ran " ++ toString n ++ " instructions in "
      ++ ((o.seconds.toOption.map Binary64.compactText).getD "") ++ "s simulated\n"
  | some .halted => "Stopped: HALT after " ++ toString n ++ " instructions\n"
  | some (.faulted f) =>
    "Stopped: " ++ f.reason.name ++ " after " ++ toString n ++ " instructions (" ++ f.message
      ++ ")\n"

theorem faultLine_eq {e : Emulator} {f : Fault} (hstop : e.machine.stop = some (.faulted f))
    (o : RunOptions) (n : Nat) : faultLine e n (.fault f) = finalLine o e n := by
  delta faultLine
  rw [finalLine, hstop, stopReason, hstop]
  rfl

theorem summary_eq {e : Emulator} (hfault : e.fault? = none) (o : RunOptions) (n : Nat) :
    ∃ lines, summary o e n = lines ++ "\n" ++ finalLine o e n := by
  delta summary
  rw [finalLine, halted]
  cases hstop : e.machine.stop with
  | none => exact ⟨_, rfl⟩
  | some s =>
      cases s with
      | halted => exact ⟨_, rfl⟩
      | faulted f =>
          rw [fault?, hstop] at hfault
          cases hfault

/-- What a report tells of a run: whether the machine faulted, and the instructions it executed but
for those in the frame that the fault ended. -/
structure Told (o : RunOptions) (e : Emulator) (calls : List HostCall) (code : Nat)
    (output : String) : Prop where
  code : code = if (e.performAll calls).2.fault?.isSome then 1 else 0
  line : ∃ lines n, output = lines ++ "\n" ++ finalLine o (e.performAll calls).2 n ∧
    n + cutOff e calls = completed (history e calls)
  uncut : (e.performAll calls).2.fault? = none → cutOff e calls = 0

/-- Options that leave out nothing, with a number of frames and a budget for each. -/
structure Runnable (o : RunOptions) (count : Int) (frame : Binary64) : Prop where
  speed : ∃ speed, o.speed = .value speed ∧ 0 < speed.value ∧
    (0 < count → Budgeted (clockAt speed.value) frame)
  seed : o.seed ≠ some .nothing
  frames : frames o.seconds o.framesPerSecond = .ok (count, frame)
  on : ∃ text, o.on = .value text
  off : ∃ text, o.off = .value text

section

variable {o : RunOptions} {e : Emulator} {lines : String}

theorem status_conclude {status code : Nat} (h : (conclude o e lines status).status = .ok code) :
    code = status ∧ ∃ text, (conclude o e lines status).output = text ++ "\n" ++ lines := by
  rw [conclude] at h ⊢
  cases hpicture : picture o e with
  | error err =>
      rw [hpicture] at h
      cases h
  | ok text =>
      rw [hpicture] at h
      cases h
      obtain ⟨rows, rfl⟩ := picture_line hpicture
      exact ⟨rfl, rows, rfl⟩

theorem conclude_given (hon : ∃ text, o.on = .value text) (hoff : ∃ text, o.off = .value text)
    (status : Nat) : (conclude o e lines status).status = .ok status := by
  obtain ⟨on, hon⟩ := hon
  obtain ⟨off, hoff⟩ := hoff
  obtain ⟨text, hpicture⟩ := picture_given hon hoff e
  rw [conclude, hpicture]

end

def closing (o : RunOptions) : Nat × Reply Unit → Report
  | (executed, .error err, e) =>
    if err.isOfMachine then conclude o e (faultLine e executed err) 1
    else { log := e.log, status := .error err }
  | (executed, .ok (), e) => conclude o e (summary o e executed) 0

theorem run_eq {o : RunOptions} {program : List UInt8} {seed count : Int} {e : Emulator}
    {frame : Binary64} (hprepare : prepare o program seed = .ok e)
    (hframes : frames o.seconds o.framesPerSecond = .ok (count, frame)) :
    CommandLine.run o program seed = closing o (runFrames frame e 0 count.toNat) := by
  rw [CommandLine.run, hprepare, hframes]
  rfl

section

variable {o : RunOptions} {e : Emulator} {frame : Binary64} {calls : List HostCall}
  {reply : Nat × Reply Unit} (hend : FramesEnd e frame calls 0 reply)

include hend

theorem told_of_end {code : Nat} (h : (closing o reply).status = .ok code) :
    Told o e calls code (closing o reply).output := by
  cases hend with
  | whole hfault hcut =>
      obtain ⟨rfl, text, houtput⟩ := status_conclude h
      obtain ⟨lines, hsummary⟩ := summary_eq hfault o (0 + completed (history e calls))
      constructor
      case code => rw [hfault]; rfl
      case line =>
        refine ⟨text ++ "\n" ++ lines, completed (history e calls), ?_, by rw [hcut, Nat.add_zero]⟩
        rw [closing, houtput, hsummary, Nat.zero_add]
        simp only [String.append_assoc]
      case uncut => exact fun _ => hcut
  | @fault f n hstop hcount =>
      obtain ⟨rfl, text, houtput⟩ := status_conclude h
      have hfault : (e.performAll calls).2.fault? = some f := fault?_of_stop hstop
      constructor
      case code => rw [hfault]; rfl
      case line =>
        rw [Nat.zero_add] at hcount
        refine ⟨text, n, ?_, hcount⟩
        rw [← faultLine_eq hstop]
        exact houtput
      case uncut =>
        rw [hfault]
        rintro ⟨⟩
  | clock hhost hdue =>
      rw [closing, hhost] at h
      cases h

theorem closing_given (hbudget : calls ≠ [] → Budgeted e.clock frame)
    (hon : ∃ text, o.on = .value text) (hoff : ∃ text, o.off = .value text) :
    ∃ code, (closing o reply).status = .ok code := by
  cases hend with
  | whole _ _ => exact ⟨0, conclude_given hon hoff 0⟩
  | fault _ _ => exact ⟨1, conclude_given hon hoff 1⟩
  | clock _ hdue => exact absurd (hbudget hdue.1) hdue.2

end

theorem last_eq {text text' line line' : String} (h : text ++ line = text' ++ line')
    (hlength : line.length = line'.length) : line = line' := by
  have hchars := congrArg String.toList h
  rw [String.toList_append, String.toList_append] at hchars
  exact String.toList_inj.mp (List.append_inj' hchars hlength).2

/-- A report tells the exit code of the machine and the instructions of all frames that no fault
ended, and every run whose options say all that it needs has a report. -/
theorem told_run (o : RunOptions) (program : List UInt8) (seed : Int) :
    (∀ code, (CommandLine.run o program seed).status = .ok code → ∃ e count frame,
      prepare o program seed = .ok e ∧ frames o.seconds o.framesPerSecond = .ok (count, frame) ∧
        Told o e (advances frame count.toNat) code (CommandLine.run o program seed).output) ∧
    ∀ count frame, Runnable o count frame →
      ∃ code, (CommandLine.run o program seed).status = .ok code := by
  constructor
  · intro code hcode
    cases hprepare : prepare o program seed with
    | error err =>
        rw [CommandLine.run, hprepare] at hcode
        cases hcode
    | ok e =>
        cases hframes : frames o.seconds o.framesPerSecond with
        | error err =>
            rw [CommandLine.run, hprepare, hframes] at hcode
            cases hcode
        | ok pair =>
            obtain ⟨hstop, hrecording⟩ := prepare_running hprepare
            have hend := framesEnd_runFrames hstop hrecording pair.2 0 pair.1.toNat
            have hrun := run_eq hprepare hframes
            rw [hrun] at hcode ⊢
            exact ⟨e, pair.1, pair.2, rfl, rfl, told_of_end hend hcode⟩
  · intro count frame h
    obtain ⟨speed, hspeed, hpos, hbudget⟩ := h.speed
    obtain ⟨given, hgiven⟩ := seed_given h.seed
    have hprepare : prepare o program seed = _ := prepare_given hspeed hpos hgiven
    obtain ⟨hstop, hrecording⟩ := prepare_running hprepare
    have hend := framesEnd_runFrames hstop hrecording frame 0 count.toNat
    rw [run_eq hprepare h.frames]
    refine closing_given hend ?_ h.on h.off
    intro hcalls
    rw [clock_readied]
    refine hbudget (Int.not_le.mp fun hnone => hcalls ?_)
    rw [Int.toNat_of_nonpos hnone]
    rfl

theorem told_second_frame :
    let o : RunOptions := {
      speed := .value (.rate 60), seconds := .value (.ofDecimal false 8 (-2)),
      seed := some (.value 5) }
    let program : List UInt8 := [0x60, 0x01, 0x61, 0x02, 0x62, 0x03, 0xFF, 0xFF]
    let frame := (Binary64.round false 1 1).div (.round false 30 1)
    Runnable o 2 frame ∧ ∃ code e, (CommandLine.run o program 5).status = .ok code ∧
      completed (history e (advances frame 2)) = 3 ∧ cutOff e (advances frame 2) = 1 ∧
      Told o e (advances frame 2) code (CommandLine.run o program 5).output := by
  intro o program frame
  have hspeed : o.speed = .value (.rate 60) := rfl
  have hbudget : Budgeted (clockAt 60) frame :=
    ⟨⟨2, by decide +kernel⟩, 2, by decide +kernel⟩
  have hframes : frames o.seconds o.framesPerSecond = .ok (2, frame) := by decide +kernel
  have hrunnable : Runnable o 2 frame :=
    ⟨⟨_, hspeed, by decide, fun _ => hbudget⟩, nofun, hframes, ⟨_, rfl⟩, ⟨_, rfl⟩⟩
  obtain ⟨code, hcode⟩ := (told_run o program 5).2 2 frame hrunnable
  obtain ⟨e, count, _, hprepare, hsame, htold⟩ := (told_run o program 5).1 code hcode
  cases hframes.symm.trans hsame
  cases (prepare_given hspeed (by decide) rfl).symm.trans hprepare
  exact ⟨hrunnable, code, _, hcode, by decide +kernel, by decide +kernel, htold⟩

/-- Two instructions in one frame and then a word that is none: the report tells that no instruction
was executed. -/
theorem not_told_first_frame :
    let o : RunOptions := { seconds := .value (.ofDecimal false 5 (-2)), seed := some (.value 5) }
    let program : List UInt8 := [0x60, 0x01, 0x61, 0x02, 0xFF, 0xFF]
    ∃ e frame, prepare o program 5 = .ok e ∧
      frames o.seconds o.framesPerSecond = .ok (1, frame) ∧
      (CommandLine.run o program 5).status = .ok 1 ∧
      completed (history e (advances frame 1)) = 2 ∧
      ¬ ∃ lines, (CommandLine.run o program 5).output =
        lines ++ "\n" ++ finalLine o (e.performAll (advances frame 1)).2 2 := by
  intro o program
  let frame := (Binary64.round false 1 1).div (.round false 30 1)
  let e := readied o program
    { machine := { random := .ofSeed 5 }, clock := clockAt 840, strictLoad := false, tracing := false }
  have hspeed : o.speed = .value (.preset .normal) := rfl
  have hprepare : prepare o program 5 = .ok e := prepare_given hspeed (by decide) rfl
  have hframes : frames o.seconds o.framesPerSecond = .ok (1, frame) := by decide +kernel
  have hbudget : Budgeted (clockAt 840) frame :=
    ⟨⟨28, by decide +kernel⟩, 2, by decide +kernel⟩
  have hdone : completed (history e (advances frame 1)) = 2 := by decide +kernel
  have hcut : cutOff e (advances frame 1) = 2 := by decide +kernel
  have hfaulted : (e.performAll (advances frame 1)).2.machine.stop =
      some (.faulted (.illegalOpcode 0x204 0xFFFF)) := by decide +kernel
  obtain ⟨hstop, hrecording⟩ := prepare_running hprepare
  have hend := framesEnd_runFrames hstop hrecording frame 0 1
  have hon : o.on = .value "#" := rfl
  have hoff : o.off = .value "." := rfl
  obtain ⟨code, hcode⟩ := closing_given hend (fun _ => hbudget) ⟨_, hon⟩ ⟨_, hoff⟩
  obtain ⟨hfault, ⟨text, n, houtput, hcount⟩, -⟩ := told_of_end hend hcode
  rw [fault?, hfaulted] at hfault
  cases hfault
  have hrun : CommandLine.run o program 5 = _ := run_eq hprepare hframes
  refine ⟨e, frame, hprepare, hframes, by rw [hrun]; exact hcode, hdone, ?_⟩
  rintro ⟨lines, hlines⟩
  obtain rfl : n = 0 := by omega
  have hsame := houtput.symm.trans ((congrArg Report.output hrun).symm.trans hlines)
  rw [finalLine, finalLine, hfaulted] at hsame
  have hline := last_eq hsame (by decide +kernel)
  revert hline
  decide +kernel

end Chip8.Proofs.InstructionCounts
