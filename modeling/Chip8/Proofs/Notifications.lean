import Chip8.Proofs.History

namespace Chip8.Proofs.Notifications

open Chip8.Emulator
open Chip8.Machine
open Chip8.Proofs.Batches
open Chip8.Proofs.Execution
open Chip8.Proofs.History
open Chip8.Proofs.Loading
open Chip8.Proofs.NoteTaking
open Chip8.Proofs.Stepping

/-- The event of an instruction that succeeds. -/
def eventOf (m : Machine) (word : Int) : Opcode → Option Event
  | .draw => some .displayUpdated
  | .setSound => if 0 < m.registers.read (regX word) then some .soundOn else none
  | _ => none

/-- An execution that leaves the sound timer alone and reports nothing. -/
structure Quiet (m : Machine) (x : Execution) : Prop where
  sound : x.machine.sound = m.sound
  event : ∀ event, x.result = .ok event → event = none

theorem quiet_jump (m : Machine) (target : Nat) : Quiet m (m.jump target) := by
  rw [jump]
  split
  · exact ⟨rfl, by rintro _ ⟨⟩; rfl⟩
  · exact ⟨rfl, by rintro _ ⟨⟩; rfl⟩

theorem quiet_call (m : Machine) (target : Nat) : Quiet m (m.call target) := by
  rcases call_cases m target with ⟨-, hfault⟩ | ⟨_, hcall⟩
  · rw [hfault]
    exact ⟨rfl, nofun⟩
  · rw [hcall]
    exact ⟨rfl, by rintro _ ⟨⟩; rfl⟩

theorem quiet_ret (m : Machine) : Quiet m m.ret := by
  rcases ret_cases m with ⟨-, hfault⟩ | ⟨k, _, -, hret⟩
  · rw [hfault]
    exact ⟨rfl, nofun⟩
  · rw [hret]
    exact ⟨rfl, by rintro _ ⟨⟩; rfl⟩

theorem quiet_execute (m : Machine) {op : Opcode} (hdraw : op ≠ .draw) (hsound : op ≠ .setSound)
    (word : Int) : Quiet m (m.execute op word) := by
  have heffect := effect_execute m op word
  generalize m.execute op word = x at heffect
  cases heffect with
  | setSound hop => exact absurd hop hsound
  | draw hop => exact absurd hop hdraw
  | jump => exact quiet_jump m _
  | call => exact quiet_call m _
  | ret => exact quiet_ret m
  | _ => exact ⟨rfl, by rintro _ ⟨⟩; rfl⟩

theorem eventOf_of_ne (m : Machine) {op : Opcode} (hdraw : op ≠ .draw) (hsound : op ≠ .setSound)
    (word : Int) : eventOf m word op = none := by
  cases op with
  | draw => exact absurd rfl hdraw
  | setSound => exact absurd rfl hsound
  | _ => rfl

theorem event_execute {m : Machine} {op : Opcode} {word : Int} {event : Option Event}
    (h : (m.execute op word).result = .ok event) : event = eventOf m word op := by
  by_cases hdraw : op = .draw
  · subst hdraw
    obtain ⟨screen, flag, hexecute⟩ := draw_eq m (regX word) (regY word) (lowNibble word)
    simp only [execute, hexecute] at h
    exact (Except.ok.inj h).symm
  · by_cases hsound : op = .setSound
    · subst hsound
      exact (Except.ok.inj h).symm
    · rw [eventOf_of_ne m hdraw hsound]
      exact (quiet_execute m hdraw hsound word).event event h

theorem sound_execute (m : Machine) (op : Opcode) (word : Int) :
    (m.execute op word).machine.sound =
      if op = .setSound then .set (m.registers.read (regX word)) else m.sound := by
  by_cases hsound : op = .setSound
  · subst hsound
    rfl
  · rw [if_neg hsound]
    by_cases hdraw : op = .draw
    · subst hdraw
      obtain ⟨screen, flag, hexecute⟩ := draw_eq m (regX word) (regY word) (lowNibble word)
      simp only [execute, hexecute]
    · exact (quiet_execute m hdraw hsound word).sound

theorem eventOf_of_stackFault {m : Machine} {op : Opcode} {f : Fault} (h : StackFault m op f)
    (word : Int) : eventOf m word op = none := by
  cases h <;> rfl

theorem announced_instruction (e : Emulator) :
    (Happening.instruction e).announced =
      (Opcode.lookup e.nextWord).bind (eventOf e.machine e.nextWord) := by
  have houtcome := outcome_silent e
  rw [Happening.announced]
  generalize silent e = reply at houtcome ⊢
  cases houtcome with
  | illegal hop =>
      rw [hop]
      rfl
  | stackFault hop hf =>
      rw [hop, Option.bind_some, eventOf_of_stackFault hf]
      rfl
  | done hop _ hresult =>
      rw [hop, Option.bind_some, ← event_execute hresult]
      rfl

def Announces (event : Event) (h : Happening) : Prop :=
  h.announced = some event

instance (event : Event) : DecidablePred (Announces event) :=
  fun h => inferInstanceAs (Decidable (h.announced = some event))

inductive Draws : Happening → Prop
  | mk {e : Emulator} (hop : Opcode.lookup e.nextWord = some .draw) : Draws (.instruction e)

/-- A value other than zero is stored in the sound timer. -/
inductive Sounds : Happening → Prop
  | mk {e : Emulator} (hop : Opcode.lookup e.nextWord = some .setSound)
      (hpositive : 0 < e.machine.registers.read (regX e.nextWord)) : Sounds (.instruction e)

/-- A zero is stored in the sound timer while it runs. -/
inductive Quenches : Happening → Prop
  | mk {e : Emulator} (hop : Opcode.lookup e.nextWord = some .setSound)
      (hzero : e.machine.registers.read (regX e.nextWord) = 0)
      (hsound : e.machine.sound.value ≠ 0) : Quenches (.instruction e)

/-- A countdown takes the sound timer to zero. -/
inductive Ends : Happening → Prop
  | mk {e : Emulator} {ticks : Int} (hbefore : e.machine.sound.value ≠ 0)
      (hafter : (countDown e ticks).machine.sound.value = 0) : Ends (.countdown e ticks)

inductive IsRestart : Happening → Prop
  | mk (e : Emulator) : IsRestart (.restart e)

theorem not_restart_instruction (e : Emulator) : ¬ IsRestart (.instruction e) :=
  nofun

theorem not_restart_countdown (e : Emulator) (ticks : Int) : ¬ IsRestart (.countdown e ticks) :=
  nofun

instance : DecidablePred IsRestart
  | .restart e => .isTrue (.mk e)
  | .instruction e => .isFalse (not_restart_instruction e)
  | .countdown e ticks => .isFalse (not_restart_countdown e ticks)

theorem announces_displayUpdated_iff (h : Happening) : Announces .displayUpdated h ↔ Draws h := by
  constructor
  · intro hannounced
    cases h with
    | instruction e =>
        rw [Announces, announced_instruction, Option.bind_eq_some_iff] at hannounced
        obtain ⟨op, hop, hevent⟩ := hannounced
        cases op with
        | draw => exact .mk hop
        | setSound => simp [eventOf] at hevent
        | _ => cases hevent
    | countdown e ticks => simp [Announces, Happening.announced] at hannounced
    | restart e => cases hannounced
  · rintro ⟨hop⟩
    rw [Announces, announced_instruction, hop]
    rfl

theorem announces_soundOn_iff (h : Happening) : Announces .soundOn h ↔ Sounds h := by
  constructor
  · intro hannounced
    cases h with
    | instruction e =>
        rw [Announces, announced_instruction, Option.bind_eq_some_iff] at hannounced
        obtain ⟨op, hop, hevent⟩ := hannounced
        cases op with
        | setSound =>
            rw [eventOf, Option.ite_none_right_eq_some] at hevent
            exact .mk hop hevent.1
        | _ => cases hevent
    | countdown e ticks => simp [Announces, Happening.announced] at hannounced
    | restart e => cases hannounced
  · rintro ⟨hop, hpositive⟩
    rw [Announces, announced_instruction, hop]
    exact if_pos hpositive

theorem announces_soundOff_iff (h : Happening) : Announces .soundOff h ↔ Ends h := by
  constructor
  · intro hannounced
    cases h with
    | instruction e =>
        rw [Announces, announced_instruction, Option.bind_eq_some_iff] at hannounced
        obtain ⟨op, hop, hevent⟩ := hannounced
        cases op with
        | setSound => simp [eventOf] at hevent
        | _ => cases hevent
    | countdown e ticks =>
        rw [Announces, Happening.announced, Option.ite_none_right_eq_some,
          Countdown.decay_ended_iff] at hannounced
        obtain ⟨⟨hbefore, hafter⟩, -⟩ := hannounced
        exact .mk hbefore hafter
    | restart e => cases hannounced
  · rintro ⟨hbefore, hafter⟩
    exact if_pos ((Countdown.decay_ended_iff _ _).mpr ⟨hbefore, hafter⟩)

theorem set_read_ne_zero_iff (r : Registers) (x : Fin 16) :
    (Countdown.set (r.read x)).value ≠ 0 ↔ 0 < r.read x := by
  have hbyte := isByte_toNat (r.byte x)
  have hzero : (0 : UInt8).toNat = 0 := rfl
  simp only [IsByte] at hbyte
  simp only [Countdown.set, ne_eq, ← UInt8.toNat_inj, toNat_toByte, Registers.read]
  omega

theorem ne_zero_of_decay {c : Countdown} {ticks : Int} (h : (c.decay ticks).2.value ≠ 0) :
    c.value ≠ 0 := by
  have hleft := c.value_decay ticks
  have hzero : (0 : UInt8).toNat = 0 := rfl
  simp only [ne_eq, ← UInt8.toNat_inj] at h ⊢
  omega

theorem sound_instruction (e : Emulator) :
    (Happening.instruction e).after.machine.sound =
      if Opcode.lookup e.nextWord = some .setSound then
        .set (e.machine.registers.read (regX e.nextWord))
      else e.machine.sound := by
  have houtcome := outcome_silent e
  rw [Happening.after]
  generalize silent e = reply at houtcome ⊢
  cases houtcome with
  | illegal hop =>
      rw [hop, if_neg nofun]
      rfl
  | @stackFault op f hop hf =>
      have hkept : (e.traced op e.nextWord).machine.sound = e.machine.sound := by
        rw [machine_traced]
      rw [hop, if_neg (by rintro ⟨⟩; cases hf)]
      exact hkept
  | @done op event hop _ _ =>
      simp only [hop, Option.some.injEq]
      exact sound_execute e.machine op _

theorem runs_after_instruction_iff (e : Emulator) :
    (Happening.instruction e).after.machine.sound.value ≠ 0 ↔
      Sounds (.instruction e) ∨ e.machine.sound.value ≠ 0 ∧ ¬ Quenches (.instruction e) := by
  rw [sound_instruction]
  by_cases hop : Opcode.lookup e.nextWord = some .setSound
  · rw [if_pos hop, set_read_ne_zero_iff]
    constructor
    · intro hpositive
      exact .inl ⟨hop, hpositive⟩
    · rintro (⟨-, hpositive⟩ | ⟨hsound, hquench⟩)
      · exact hpositive
      · have hread : 0 ≤ e.machine.registers.read (regX e.nextWord) := Int.natCast_nonneg _
        have hzero : e.machine.registers.read (regX e.nextWord) ≠ 0 := by
          intro hzero
          exact hquench (.mk hop hzero hsound)
        omega
  · rw [if_neg hop]
    constructor
    · intro hsound
      refine .inr ⟨hsound, ?_⟩
      rintro ⟨hstore, -, -⟩
      exact hop hstore
    · rintro (⟨hstore, -⟩ | ⟨hsound, -⟩)
      · exact absurd hstore hop
      · exact hsound

theorem runs_after_iff (h : Happening) :
    h.after.machine.sound.value ≠ 0 ↔
      Sounds h ∨ h.before.machine.sound.value ≠ 0 ∧ ¬ Ends h ∧ ¬ IsRestart h ∧ ¬ Quenches h := by
  cases h with
  | instruction e =>
      have hends : ¬ Ends (.instruction e) := nofun
      have hrestart := not_restart_instruction e
      simp only [runs_after_instruction_iff, Happening.before, hends, hrestart, not_false_eq_true,
        true_and]
  | countdown e ticks =>
      constructor
      · intro hsound
        refine .inr ⟨ne_zero_of_decay hsound, ?_, nofun, nofun⟩
        rintro ⟨-, hzero⟩
        exact hsound hzero
      · rintro (⟨⟨⟩⟩ | ⟨hsound, hends, -, -⟩)
        intro hzero
        exact hends (.mk hsound hzero)
  | restart e =>
      constructor
      · intro hsound
        exact absurd rfl hsound
      · rintro (⟨⟨⟩⟩ | ⟨-, -, hrestart, -⟩)
        exact absurd (.mk e) hrestart

theorem Ends.before {h : Happening} (hends : Ends h) : h.before.machine.sound.value ≠ 0 := by
  obtain ⟨hbefore, -⟩ := hends
  exact hbefore

theorem Quenches.before {h : Happening} (hquench : Quenches h) :
    h.before.machine.sound.value ≠ 0 := by
  obtain ⟨-, -, hsound⟩ := hquench
  exact hsound

theorem Quenches.alone {h : Happening} (hquench : Quenches h) :
    ¬ Sounds h ∧ ¬ Ends h ∧ ¬ IsRestart h := by
  obtain ⟨-, hzero, -⟩ := hquench
  refine ⟨?_, nofun, nofun⟩
  rintro ⟨-, hpositive⟩
  exact absurd hzero (Int.ne_of_gt hpositive)

/-- Since the sound was reported on, it was not reported off, nor did the machine start afresh. -/
def Sounding (hs : List Happening) : Prop :=
  Standing (Announces .soundOn) (fun h => Announces .soundOff h ∨ IsRestart h) hs

theorem sounding_concat {past : List Happening} {h : Happening}
    (hpast : h.before.machine.sound.value ≠ 0 → Sounding past)
    (hsound : h.after.machine.sound.value ≠ 0) : Sounding (past ++ [h]) := by
  rw [Sounding, standing_concat, announces_soundOn_iff, announces_soundOff_iff]
  rcases (runs_after_iff h).mp hsound with hon | ⟨hbefore, hends, hrestart, -⟩
  · exact .inl hon
  · refine .inr ⟨hpast hbefore, ?_⟩
    rintro (hoff | hstarted)
    · exact hends hoff
    · exact hrestart hstarted

theorem sounding_of_course {hs : List Happening} {value : UInt8} (h : Course 0 hs value)
    (hsound : value ≠ 0) : Sounding hs := by
  have hempty : (0 : UInt8) ≠ 0 → Sounding [] := fun hne => absurd rfl hne
  exact h.induct (I := fun past value => value ≠ 0 → Sounding past)
    (fun _ _ hpast => sounding_concat hpast) hempty hsound

theorem countP_trail (e : Emulator) (count : Nat) :
    (trail e count).countP (Announces .soundOff ·) = 0 := by
  rw [List.countP_eq_zero]
  intro h hmem
  obtain ⟨e', rfl⟩ := instruction_of_mem_trail hmem
  have hends : ¬ Ends (.instruction e') := nofun
  simpa only [decide_eq_true_eq, announces_soundOff_iff] using hends

theorem countP_advanced_le (e : Emulator) (elapsed : Binary64) :
    (advanced e elapsed).countP (Announces .soundOff ·) ≤ 1 := by
  rw [advanced]
  split
  · exact Nat.zero_le 1
  · split
    · exact Nat.zero_le 1
    · rw [List.countP_append, countP_trail, Nat.zero_add]
      exact Nat.le_trans List.countP_le_length (length_countdowns_le _ _)

/-- A call that counts down the timers. -/
def Timed : HostCall → Prop
  | .request (.advance _) | .request (.tick _) => True
  | _ => False

theorem countP_happenings_of_not_timed (e : Emulator) {c : HostCall} (hc : ¬ Timed c) :
    (happenings e c).countP (Announces .soundOff ·) = 0 := by
  cases c with
  | listen event l => rfl
  | request r =>
      cases r with
      | step => exact countP_trail e 1
      | run maxSteps => exact countP_trail e _
      | advance _ | tick _ => exact absurd trivial hc
      | load program speed =>
          rw [happenings]
          split <;> rfl
      | reset | keyDown _ | keyUp _ | listen _ _ | unlisten _ _ => rfl

theorem countP_happenings_le (e : Emulator) (c : HostCall) :
    (happenings e c).countP (Announces .soundOff ·) ≤ 1 := by
  by_cases hc : Timed c
  · match c, hc with
    | .request (.advance elapsed), _ => exact countP_advanced_le e elapsed
    | .request (.tick now), _ => exact countP_advanced_le _ _
  · rw [countP_happenings_of_not_timed e hc]
    exact Nat.zero_le 1

/-- An emulator after a reset, or after a load that succeeded. -/
def Started (e : Emulator) : Prop :=
  ∃ e' : Emulator, e = e'.reset ∨ ∃ program speed, e'.load program speed = (.ok (), e)

theorem started_of_load {e : Emulator} {program : List UInt8} {speed : Option SpeedRequest}
    (h : (e.load program speed).1 = .ok ()) : Started (e.load program speed).2 :=
  ⟨e, .inr ⟨program, speed, Prod.ext h rfl⟩⟩

theorem Started.machine {e : Emulator} (h : Started e) :
    e.machine = { random := e.machine.random, memory := e.machine.memory } := by
  obtain ⟨e', rfl | ⟨program, speed, hload⟩⟩ := h
  · rfl
  · obtain ⟨-, clock, -, rfl⟩ := load_ok_iff.mp hload
    obtain ⟨log, hloaded⟩ := loaded_eq e' program clock
    rw [hloaded]
    rfl

theorem Started.sound {e : Emulator} (h : Started e) : e.machine.sound.value = 0 := by
  rw [h.machine]

/-- What the listeners of an emulator are told during some calls, and why. -/
structure Reported (e : Emulator) (calls : List HostCall) : Prop where
  /-- Each announcement is noted once by each registration, in order, and nothing else is. -/
  notices : (e.performAll calls).2.notices =
    e.notices ++ ((history e calls).flatMap (·.heard e.listeners)).toArray
  displayUpdated : ∀ h ∈ history e calls, Announces .displayUpdated h ↔ Draws h
  soundOn : ∀ h ∈ history e calls, Announces .soundOn h ↔ Sounds h
  soundOff : ∀ h ∈ history e calls, Announces .soundOff h ↔ Ends h
  once : ∀ earlier c later, calls = earlier ++ c :: later →
    (happenings (e.performAll earlier).2 c).countP (Announces .soundOff ·) ≤ 1
  timed : ∀ earlier c later, calls = earlier ++ c :: later →
    ∀ h ∈ happenings (e.performAll earlier).2 c, Announces .soundOff h → Timed c
  alternating : ∀ past h later, history e calls = past ++ h :: later → Announces .soundOff h →
    Sounding past

theorem reported_of_started {e : Emulator} (hstart : Started e)
    (hrecording : Recording e.listeners) {calls : List HostCall}
    (hcalls : ∀ c ∈ calls, Driving c) : Reported e calls := by
  obtain ⟨-, hnotices, hcourse⟩ := passed_performAll hrecording hcalls
  rw [hstart.sound] at hcourse
  constructor
  case notices => exact hnotices
  case displayUpdated => exact fun h _ => announces_displayUpdated_iff h
  case soundOn => exact fun h _ => announces_soundOn_iff h
  case soundOff => exact fun h _ => announces_soundOff_iff h
  case once => exact fun _ c _ _ => countP_happenings_le _ c
  case timed =>
    intro earlier c later _ h hmem hoff
    refine Classical.byContradiction fun hc => ?_
    have hnone := List.countP_eq_zero.mp (countP_happenings_of_not_timed _ hc) h hmem
    exact hnone (decide_eq_true hoff)
  case alternating =>
    intro past h later hhistory hoff
    rw [hhistory] at hcourse
    -- What ends now was running before, so it was reported on in the past.
    have hends := (announces_soundOff_iff h).mp hoff
    exact sounding_of_course hcourse.cut hends.before

theorem reported_across_silence : ∃ e,
    Emulator.new {} (.ofList [7]) = .ok e ∧
      let listening := (e.performAll
        [.listen .displayUpdated { name := "screen", event := .displayUpdated },
          .listen .soundOn { name := "on", event := .soundOn },
          .listen .soundOff { name := "off", event := .soundOff }]).2
      let program : List UInt8 :=
        [0x60, 0x05, 0xF0, 0x18, 0xF1, 0x18, 0xD0, 0x01, 0xF0, 0x18, 0x12, 0x0A]
      let started := (listening.load program none).2
      let calls : List HostCall :=
        [.run 3, .keyDown (.int 3), .tick .zero, .advance (.ofDecimal false 5 (-1))]
      Started started ∧ Recording started.listeners ∧ (∀ c ∈ calls, Driving c) ∧
        (started.performAll calls).2.notices.map Notice.event =
          #[.soundOn, .displayUpdated, .soundOn, .soundOff] ∧
        Reported started calls := by
  refine ⟨_, rfl, ?_⟩
  intro listening program started calls
  have hload : listening.load program none = (.ok (), started) :=
    Prod.ext (congrArg Prod.fst (load_of_lax rfl program)) rfl
  have hlisteners : started.listeners = listening.listeners := listeners_load _ _ _
  have hrecording : Recording started.listeners := by
    rw [hlisteners]
    have hregistered : listening.listeners.registered =
        [(.displayUpdated, { name := "screen", event := .displayUpdated }),
          (.soundOn, { name := "on", event := .soundOn }),
          (.soundOff, { name := "off", event := .soundOff })] := rfl
    rw [Recording, hregistered]
    simp
  have hcalls : ∀ c ∈ calls, Driving c := by
    simp only [calls, List.forall_mem_cons]
    exact ⟨trivial, trivial, trivial, trivial, nofun⟩
  have hstart : Started started := ⟨listening, .inr ⟨program, none, hload⟩⟩
  exact ⟨hstart, hrecording, hcalls, by decide +kernel, reported_of_started hstart hrecording hcalls⟩

end Chip8.Proofs.Notifications
