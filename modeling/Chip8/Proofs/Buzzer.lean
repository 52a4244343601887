import Mathlib.Data.List.Basic
import Chip8.Proofs.Notifications

/-!
A host that keeps one flag for its buzzer, by what its listeners are told. The flag is right unless
a program stores a zero in the running sound timer, which nobody is told of; then the flag stays set
until the sound is reported on again or the machine starts afresh.
-/

namespace Chip8.Proofs.Buzzer

open Chip8.Emulator
open Chip8.Proofs.History
open Chip8.Proofs.NoteTaking
open Chip8.Proofs.Notifications

/-- The flag of a buzzer after an event was reported. -/
def buzz (flag : Bool) : Event → Bool
  | .displayUpdated => flag
  | .soundOn => true
  | .soundOff => false

/-- A call that makes the machine start afresh. -/
def restarts (e : Emulator) : HostCall → Bool
  | .request .reset => true
  | .request (.load program speed) => (e.load program speed).1.isOk
  | _ => false

/-- The flag of a host after some calls. It is cleared by the host itself when the machine starts
afresh, and else follows what is newly noted. -/
def buzzer (e : Emulator) (flag : Bool) : List HostCall → Bool
  | [] => flag
  | c :: rest =>
    let e' := (e.perform c).2
    let new := e'.notices.toList.drop e.notices.size
    buzzer e' (if restarts e c then false else new.foldl (fun flag n => buzz flag n.event) flag) rest

/-- Listeners that only take note, of the event that they are registered for, with one at least for
either event of the sound. -/
structure Attentive (ls : Listeners) : Prop where
  recording : Recording ls
  truthful : ∀ r ∈ ls.registered, r.2.event = r.1
  soundOn : ls.forEvent .soundOn ≠ []
  soundOff : ls.forEvent .soundOff ≠ []

def lit (flag : Bool) : Happening → Bool
  | .restart _ => false
  | h => h.announced.elim flag (buzz flag)

theorem buzz_buzz (flag : Bool) (event : Event) : buzz (buzz flag event) event = buzz flag event := by
  cases event <;> rfl

theorem foldl_buzz {ns : List Notice} {event : Event} (h : ∀ n ∈ ns, n.event = event)
    (flag : Bool) : ns.foldl (fun flag n => buzz flag n.event) (buzz flag event) = buzz flag event := by
  induction ns with
  | nil => rfl
  | cons n rest ih =>
      rw [List.foldl_cons, h n List.mem_cons_self, buzz_buzz]
      exact ih fun n hn => h n (List.mem_cons_of_mem _ hn)

theorem foldl_buzz_of_ne_nil {ns : List Notice} {event : Event} (h : ∀ n ∈ ns, n.event = event)
    (hne : ns ≠ []) (flag : Bool) :
    ns.foldl (fun flag n => buzz flag n.event) flag = buzz flag event := by
  cases ns with
  | nil => exact absurd rfl hne
  | cons n rest =>
      rw [List.foldl_cons, h n List.mem_cons_self]
      exact foldl_buzz (fun n hn => h n (List.mem_cons_of_mem _ hn)) flag

theorem event_of_mem_notices {ls : Listeners} (hl : Attentive ls) {e : Emulator} {event : Event}
    {n : Notice} (hn : n ∈ (notices e (ls.forEvent event)).toList) : n.event = event := by
  obtain ⟨l, hl', rfl⟩ := List.mem_map.mp hn
  obtain ⟨r, hr, rfl⟩ := List.mem_map.mp hl'
  obtain ⟨hregistered, hevent⟩ := List.mem_filter.mp hr
  rw [hl.truthful r hregistered]
  exact of_decide_eq_true hevent

theorem notices_ne_nil {ls : List Listener} (h : ls ≠ []) (e : Emulator) :
    (notices e ls).toList ≠ [] := by
  intro hnil
  exact h (List.map_eq_nil_iff.mp hnil)

theorem lit_of_not_restart {h : Happening} (hrestart : ¬ IsRestart h) (flag : Bool) :
    lit flag h = h.announced.elim flag (buzz flag) := by
  cases h with
  | restart e => exact absurd (.mk e) hrestart
  | instruction e => rfl
  | countdown e ticks => rfl

theorem foldl_heard {ls : Listeners} (hl : Attentive ls) {h : Happening} (hrestart : ¬ IsRestart h)
    (flag : Bool) : (h.heard ls).foldl (fun flag n => buzz flag n.event) flag = lit flag h := by
  rw [lit_of_not_restart hrestart]
  cases hannounced : h.announced with
  | none => rw [Happening.heard_of_none hannounced]; rfl
  | some event =>
      have hevents := fun n => @event_of_mem_notices ls hl h.after event n
      rw [Happening.heard_of_some hannounced, Option.elim_some]
      cases event with
      | displayUpdated => exact foldl_buzz hevents flag
      | soundOn => exact foldl_buzz_of_ne_nil hevents (notices_ne_nil hl.soundOn _) flag
      | soundOff => exact foldl_buzz_of_ne_nil hevents (notices_ne_nil hl.soundOff _) flag

theorem not_restart_of_mem_trail {e : Emulator} {count : Nat} {h : Happening}
    (hmem : h ∈ trail e count) : ¬ IsRestart h := by
  obtain ⟨e', rfl⟩ := instruction_of_mem_trail hmem
  exact not_restart_instruction e'

theorem not_restart_of_mem_countdowns {e : Emulator} {elapsed : Binary64} {h : Happening}
    (hmem : h ∈ countdowns e elapsed) : ¬ IsRestart h := by
  obtain ⟨ticks, rfl⟩ := countdown_of_mem_countdowns hmem
  exact not_restart_countdown e ticks

theorem not_restart_of_mem_advanced {e : Emulator} {elapsed : Binary64} {h : Happening}
    (hmem : h ∈ advanced e elapsed) : ¬ IsRestart h := by
  rw [advanced] at hmem
  split at hmem
  · cases hmem
  · split at hmem
    · cases hmem
    · rcases List.mem_append.mp hmem with htrail | hcountdown
      · exact not_restart_of_mem_trail htrail
      · exact not_restart_of_mem_countdowns hcountdown

theorem happenings_cases (e : Emulator) (c : HostCall) :
    (restarts e c = true ∧ happenings e c = [.restart e]) ∨
      restarts e c = false ∧ ∀ h ∈ happenings e c, ¬ IsRestart h := by
  cases c with
  | listen event l => exact .inr ⟨rfl, List.forall_mem_nil _⟩
  | request r =>
      cases r with
      | step | run _ => exact .inr ⟨rfl, fun h => not_restart_of_mem_trail⟩
      | advance elapsed | tick now => exact .inr ⟨rfl, fun h => not_restart_of_mem_advanced⟩
      | reset => exact .inl ⟨rfl, rfl⟩
      | load program speed =>
          rw [restarts, happenings]
          cases (e.load program speed).1 with
          | error err => exact .inr ⟨rfl, List.forall_mem_nil _⟩
          | ok _ => exact .inl ⟨rfl, rfl⟩
      | keyDown _ | keyUp _ | listen _ _ | unlisten _ _ =>
          exact .inr ⟨rfl, List.forall_mem_nil _⟩

theorem buzzer_eq {e : Emulator} (hl : Attentive e.listeners) (flag : Bool) {calls : List HostCall}
    (hcalls : ∀ c ∈ calls, Driving c) : buzzer e flag calls = (history e calls).foldl lit flag := by
  induction calls generalizing e flag with
  | nil => rfl
  | cons c rest ih =>
      obtain ⟨hlisteners, hnotices, -⟩ := passed_perform hl.recording (hcalls c List.mem_cons_self)
      have hnew : (e.perform c).2.notices.toList.drop e.notices.size =
          (happenings e c).flatMap (·.heard e.listeners) := by
        rw [hnotices, Array.toList_append, ← Array.length_toList, List.drop_left]
      have hrest := fun flag => ih (e := (e.perform c).2) (by rwa [hlisteners]) flag
        fun c hc => hcalls c (List.mem_cons_of_mem _ hc)
      rw [buzzer, hnew, hrest, history, List.foldl_append]
      congr 1
      -- The host knows of restarts from its own calls, and of all else from its listeners.
      rcases happenings_cases e c with ⟨hrestarts, hhappened⟩ | ⟨hgoes, hhappened⟩
      · rw [hrestarts, hhappened]
        rfl
      · rw [hgoes, List.foldl_flatMap]
        exact List.foldl_ext _ _ flag fun flag h hmem => foldl_heard hl (hhappened h hmem) flag

theorem lit_iff (flag : Bool) (h : Happening) :
    lit flag h = true ↔ Sounds h ∨ flag = true ∧ ¬ Ends h ∧ ¬ IsRestart h := by
  by_cases hrestart : IsRestart h
  · obtain ⟨e⟩ := hrestart
    refine iff_of_false nofun ?_
    rintro (⟨⟨⟩⟩ | ⟨-, -, hrestart⟩)
    exact hrestart (.mk e)
  · rw [lit_of_not_restart hrestart, ← announces_soundOn_iff, ← announces_soundOff_iff]
    unfold Announces
    cases h.announced with
    | none => simp [hrestart]
    | some event => cases event <;> simp [hrestart, buzz]

/-- A zero was stored in the running sound timer; since then the sound was not started again, nor
the machine. -/
def Stuck (hs : List Happening) : Prop :=
  Standing Quenches (fun h => Sounds h ∨ IsRestart h) hs

/-- The flag is set if the sound timer runs, or if nobody was told that it does not. -/
structure Kept (flag : Bool) (past : List Happening) (value : UInt8) : Prop where
  lit : past.foldl lit flag = true ↔ value ≠ 0 ∨ Stuck past
  quiet : Stuck past → value = 0

theorem kept_concat {flag : Bool} {past : List Happening} {h : Happening}
    (hpast : Kept flag past h.before.machine.sound.value) :
    Kept flag (past ++ [h]) h.after.machine.sound.value := by
  obtain ⟨hlit, hquiet⟩ := hpast
  have hstuck : Stuck (past ++ [h]) ↔ Quenches h ∨ Stuck past ∧ ¬ (Sounds h ∨ IsRestart h) :=
    standing_concat _ _ past h
  constructor
  case lit =>
    rw [List.foldl_append, List.foldl_cons, List.foldl_nil, lit_iff, hlit, runs_after_iff, hstuck]
    constructor
    · rintro (hon | ⟨hruns | hold, hends, hrestart⟩)
      · exact .inl (.inl hon)
      · by_cases hquench : Quenches h
        · exact .inr (.inl hquench)
        · exact .inl (.inr ⟨hruns, hends, hrestart, hquench⟩)
      · by_cases hon : Sounds h
        · exact .inl (.inl hon)
        · exact .inr (.inr ⟨hold, not_or.mpr ⟨hon, hrestart⟩⟩)
    · rintro ((hon | ⟨hruns, hends, hrestart, -⟩) | hquench | ⟨hold, hkept⟩)
      · exact .inl hon
      · exact .inr ⟨.inl hruns, hends, hrestart⟩
      · exact .inr ⟨.inl hquench.before, hquench.alone.2⟩
      · refine .inr ⟨.inr hold, ?_, (not_or.mp hkept).2⟩
        intro hends
        exact hends.before (hquiet hold)
  case quiet =>
    -- What is stuck stays so only while nothing starts the timer.
    rw [hstuck]
    intro hsilent
    refine Decidable.byContradiction fun hruns => ?_
    rcases (runs_after_iff h).mp hruns with hon | ⟨hbefore, -, -, hfree⟩
    · rcases hsilent with hquench | ⟨-, hkept⟩
      · exact hquench.alone.1 hon
      · exact hkept (.inl hon)
    · rcases hsilent with hquench | ⟨hold, -⟩
      · exact hfree hquench
      · exact hbefore (hquiet hold)

theorem active_iff (c : Countdown) : c.active = true ↔ c.value ≠ 0 := by
  have hzero : (0 : UInt8).toNat = 0 := rfl
  simp only [Countdown.active, decide_eq_true_eq, ne_eq, ← UInt8.toNat_inj, UInt8.lt_iff_toNat_lt]
  omega

theorem kept_of_course {flag : Bool} {hs : List Happening} {a b : UInt8} (h : Course a hs b)
    (hflag : flag = true ↔ a ≠ 0) : Kept flag hs b := by
  have hstart : Kept flag [] a := by
    have hnone : ¬ Stuck [] := not_standing_nil _ _
    constructor
    · simpa [hnone] using hflag
    · exact fun hstuck => absurd hstuck hnone
  exact h.induct (I := Kept flag) (fun _ _ => kept_concat) hstart

theorem Kept.eq_iff {flag : Bool} {past : List Happening} {c : Countdown}
    (h : Kept flag past c.value) : past.foldl Buzzer.lit flag = c.active ↔ ¬ Stuck past := by
  rw [Bool.eq_iff_iff, h.lit, active_iff]
  constructor
  · intro hsame hstuck
    exact hsame.mp (.inr hstuck) (h.quiet hstuck)
  · intro hfree
    exact or_iff_left hfree

/-- How the sound timer gets from a positive value to zero, unless the machine starts afresh. -/
theorem ends_or_quenches {h : Happening} (hbefore : h.before.machine.sound.value ≠ 0)
    (hafter : h.after.machine.sound.value = 0) (hrestart : ¬ IsRestart h) :
    Ends h ∨ Quenches h := by
  refine Classical.byContradiction fun hneither => ?_
  obtain ⟨hends, hquench⟩ := not_or.mp hneither
  exact (runs_after_iff h).mpr (.inr ⟨hbefore, hends, hrestart, hquench⟩) hafter

/-- The flag of a host is right except after a zero was stored in the running timer, which alone of
all that ends a sound is not reported. -/
theorem buzzer_eq_active_iff {e : Emulator} (hl : Attentive e.listeners) {flag : Bool}
    (hflag : flag = e.machine.sound.active) {calls : List HostCall}
    (hcalls : ∀ c ∈ calls, Driving c) :
    (buzzer e flag calls = (e.performAll calls).2.machine.sound.active ↔
        ¬ Stuck (history e calls)) ∧
      ∀ h ∈ history e calls, h.before.machine.sound.value ≠ 0 →
        h.after.machine.sound.value = 0 → ¬ IsRestart h →
        (Announces .soundOff h ↔ ¬ Quenches h) := by
  have hcourse := (passed_performAll hl.recording hcalls).sound
  have hstart : flag = true ↔ e.machine.sound.value ≠ 0 := by rw [hflag, active_iff]
  constructor
  · rw [buzzer_eq hl flag hcalls]
    exact (kept_of_course hcourse hstart).eq_iff
  · intro h _ hbefore hafter hrestart
    rw [announces_soundOff_iff]
    constructor
    · intro hends hquench
      exact hquench.alone.2.1 hends
    · intro hquench
      exact (ends_or_quenches hbefore hafter hrestart).resolve_right hquench

theorem attentive_pair (known : List Listener) (on off : String) :
    Attentive { known, registered :=
      [(.soundOn, { name := on, event := .soundOn }),
        (.soundOff, { name := off, event := .soundOff })] } := by
  constructor
  · simp [Recording]
  · simp
  · simp [Listeners.forEvent]
  · simp [Listeners.forEvent]

theorem buzzer_follows_timer : ∃ e,
    Emulator.new {} (.ofList [7]) = .ok e ∧
      let listening := (e.performAll
        [.listen .soundOn { name := "on", event := .soundOn },
          .listen .soundOff { name := "off", event := .soundOff }]).2
      let calls : List HostCall :=
        [.load [0x60, 0x05, 0xF0, 0x18, 0x12, 0x02] none, .run 3, .tick .zero,
          .tick (.ofDecimal false 5 (-1)), .step, .keyDown (.int 3), .step]
      Attentive listening.listeners ∧ false = listening.machine.sound.active ∧
        (∀ c ∈ calls, Driving c) ∧
        (buzzer listening false calls = (listening.performAll calls).2.machine.sound.active ↔
          ¬ Stuck (history listening calls)) ∧
        ∀ h ∈ history listening calls, h.before.machine.sound.value ≠ 0 →
          h.after.machine.sound.value = 0 → ¬ IsRestart h →
          (Announces .soundOff h ↔ ¬ Quenches h) := by
  refine ⟨_, rfl, ?_⟩
  intro listening calls
  have hl : Attentive listening.listeners := attentive_pair _ "on" "off"
  have hcalls : ∀ c ∈ calls, Driving c := by
    simp only [calls, List.forall_mem_cons]
    exact ⟨trivial, trivial, trivial, trivial, trivial, trivial, trivial, List.forall_mem_nil _⟩
  exact ⟨hl, rfl, hcalls, buzzer_eq_active_iff hl rfl hcalls⟩

/-- A five and then a zero is stored in the sound timer. -/
theorem buzzer_stuck_after_zero : ∃ e,
    Emulator.new {} (.ofList [7]) = .ok e ∧
      let listening := (e.performAll
        [.listen .soundOn { name := "on", event := .soundOn },
          .listen .soundOff { name := "off", event := .soundOff }]).2
      let calls : List HostCall :=
        [.load [0x60, 0x05, 0xF0, 0x18, 0x60, 0x00, 0xF0, 0x18, 0x12, 0x08] none, .step, .step,
          .step, .step]
      Attentive listening.listeners ∧ false = listening.machine.sound.active ∧
        (∀ c ∈ calls, Driving c) ∧
        buzzer listening false calls ≠ (listening.performAll calls).2.machine.sound.active := by
  refine ⟨_, rfl, ?_⟩
  intro listening calls
  have hcalls : ∀ c ∈ calls, Driving c := by
    simp only [calls, List.forall_mem_cons]
    exact ⟨trivial, trivial, trivial, trivial, trivial, List.forall_mem_nil _⟩
  exact ⟨attentive_pair _ "on" "off", rfl, hcalls, by decide +kernel⟩

end Chip8.Proofs.Buzzer
