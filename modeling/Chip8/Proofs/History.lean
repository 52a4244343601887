import Chip8.Proofs.Batches
import Chip8.Proofs.Loading

/-!
What happens in a session: instructions are executed, timers are counted down, and machines start
afresh. Under listeners that only take note, all that they note comes from it, and so does the value
of the sound timer.
-/

namespace Chip8.Proofs.History

open Chip8.Emulator
open Chip8.Proofs.Batches
open Chip8.Proofs.Loading
open Chip8.Proofs.NoteTaking
open Chip8.Proofs.Stepping
open Chip8.Proofs.TwoRuns

/-- An emulator executes the instruction at its program counter, its timers are counted down by some
ticks, or its machine starts afresh. -/
inductive Happening
  | instruction (e : Emulator)
  | countdown (e : Emulator) (ticks : Int)
  | restart (e : Emulator)

namespace Happening

def before : Happening → Emulator
  | .instruction e => e
  | .countdown e _ => e
  | .restart e => e

def after : Happening → Emulator
  | .instruction e => (silent e).2
  | .countdown e ticks => countDown e ticks
  | .restart e => e.reset

/-- The event that is reported when something happened. -/
def announced : Happening → Option Event
  | .instruction e => (silent e).1.toOption.join
  | .countdown e ticks => if (e.machine.sound.decay ticks).1 then some .soundOff else none
  | .restart _ => none

/-- What listeners note of a happening, each registration once. -/
def heard (ls : Listeners) (h : Happening) : List Notice :=
  match h.announced with
  | none => []
  | some event => (notices h.after (ls.forEvent event)).toList

theorem heard_of_none {h : Happening} (hquiet : h.announced = none) (ls : Listeners) :
    h.heard ls = [] := by
  rw [heard, hquiet]

theorem heard_of_some {h : Happening} {event : Event} (hevent : h.announced = some event)
    (ls : Listeners) : h.heard ls = (notices h.after (ls.forEvent event)).toList := by
  rw [heard, hevent]

end Happening

/-- The instructions that some steps execute. -/
def trail (e : Emulator) : Nat → List Happening
  | 0 => []
  | count + 1 => if e.stopped then [] else .instruction e :: trail e.step.2 count

/-- The countdown after a batch, unless a fault ended it. -/
def countdowns (e : Emulator) (elapsed : Binary64) : List Happening :=
  match e.clock.ticksDue elapsed with
  | .error _ => []
  | .ok ticks => if e.fault?.isSome then [] else [.countdown e ticks]

def advanced (e : Emulator) (elapsed : Binary64) : List Happening :=
  if e.stopped then []
  else
    match e.clock.cyclesDue elapsed with
    | .error _ => []
    | .ok cycles =>
      trail e cycles.toNat ++ countdowns (stepped e (executed e cycles.toNat)) elapsed

def happenings (e : Emulator) : HostCall → List Happening
  | .request .step => trail e 1
  | .request (.run maxSteps) => trail e maxSteps.toNat
  | .request (.advance elapsed) => advanced e elapsed
  | .request (.tick now) =>
    let (elapsed, clock) := e.clock.elapsedSince now
    advanced { e with clock } elapsed
  | .request .reset => [.restart e]
  | .request (.load program speed) =>
    match (e.load program speed).1 with
    | .error _ => []
    | .ok () => [.restart e]
  | _ => []

def history (e : Emulator) : List HostCall → List Happening
  | [] => []
  | c :: rest => happenings e c ++ history (e.perform c).2 rest

theorem instruction_of_mem_trail {e : Emulator} {count : Nat} {h : Happening}
    (hmem : h ∈ trail e count) : ∃ e', h = .instruction e' := by
  induction count generalizing e with
  | zero => cases hmem
  | succ count ih =>
      rw [trail] at hmem
      split at hmem
      · cases hmem
      · rcases List.mem_cons.mp hmem with rfl | hrest
        · exact ⟨e, rfl⟩
        · exact ih hrest

theorem countdown_of_mem_countdowns {e : Emulator} {elapsed : Binary64} {h : Happening}
    (hmem : h ∈ countdowns e elapsed) : ∃ ticks, h = .countdown e ticks := by
  rw [countdowns] at hmem
  split at hmem
  · cases hmem
  · split at hmem
    · cases hmem
    · exact ⟨_, List.mem_singleton.mp hmem⟩

theorem length_countdowns_le (e : Emulator) (elapsed : Binary64) :
    (countdowns e elapsed).length ≤ 1 := by
  rw [countdowns]
  split
  · exact Nat.zero_le 1
  · split
    · exact Nat.zero_le 1
    · exact Nat.le_refl 1

/-- Something happened that sets a flag, and nothing since that clears it. -/
def Standing (sets clears : Happening → Prop) (hs : List Happening) : Prop :=
  ∃ past h since, hs = past ++ h :: since ∧ sets h ∧ ∀ g ∈ since, ¬ clears g

theorem not_standing_nil (sets clears : Happening → Prop) : ¬ Standing sets clears [] := by
  rintro ⟨past, h, since, heq, -, -⟩
  cases past <;> cases heq

theorem standing_concat (sets clears : Happening → Prop) (hs : List Happening) (h : Happening) :
    Standing sets clears (hs ++ [h]) ↔ sets h ∨ Standing sets clears hs ∧ ¬ clears h := by
  constructor
  · rintro ⟨past, g, since, heq, hset, hkept⟩
    -- The last entry sets the flag itself, or it comes after the one that does.
    rcases List.eq_nil_or_concat since with rfl | ⟨since, last, rfl⟩
    · obtain ⟨-, hlast⟩ := List.append_inj' heq rfl
      cases hlast
      exact .inl hset
    · rw [List.concat_eq_append] at heq hkept
      rw [← List.cons_append, ← List.append_assoc] at heq
      obtain ⟨rfl, hlast⟩ := List.append_inj' heq rfl
      cases hlast
      refine .inr ⟨⟨past, g, since, rfl, hset, ?_⟩, hkept _ (by simp)⟩
      intro g' hg'
      exact hkept g' (List.mem_append_left _ hg')
  · rintro (hset | ⟨⟨past, g, since, rfl, hset, hkept⟩, hclear⟩)
    · exact ⟨hs, h, [], rfl, hset, fun g hg => absurd hg List.not_mem_nil⟩
    · refine ⟨past, g, since ++ [h], by simp, hset, ?_⟩
      intro g' hg'
      rcases List.mem_append.mp hg' with hold | hnew
      · exact hkept g' hold
      · rwa [List.mem_singleton.mp hnew]

/-- The values of the sound timer along what happens. -/
inductive Course : UInt8 → List Happening → UInt8 → Prop
  | nil (value : UInt8) : Course value [] value
  | cons {h : Happening} {hs : List Happening} {value : UInt8}
      (rest : Course h.after.machine.sound.value hs value) :
      Course h.before.machine.sound.value (h :: hs) value

theorem Course.trans {a b c : UInt8} {hs hs' : List Happening} (h : Course a hs b)
    (h' : Course b hs' c) : Course a (hs ++ hs') c := by
  induction h with
  | nil => exact h'
  | cons _ ih => exact .cons (ih h')

theorem Course.cut {a b : UInt8} {past : List Happening} {h : Happening} {later : List Happening}
    (hcourse : Course a (past ++ h :: later) b) : Course a past h.before.machine.sound.value := by
  induction past generalizing a with
  | nil =>
      cases hcourse
      exact .nil _
  | cons g past ih =>
      cases hcourse with
      | cons rest => exact .cons (ih rest)

/-- What each happening keeps of all that came before and of the sound timer is kept throughout. -/
theorem Course.induct {I : List Happening → UInt8 → Prop}
    (hstep : ∀ past h, I past h.before.machine.sound.value →
      I (past ++ [h]) h.after.machine.sound.value)
    {a b : UInt8} {hs : List Happening} (hcourse : Course a hs b) {past : List Happening}
    (h : I past a) : I (past ++ hs) b := by
  induction hcourse generalizing past with
  | nil => rwa [List.append_nil]
  | @cons g hs b _ ih =>
      have hrest := ih (hstep past g h)
      rwa [List.append_assoc, List.singleton_append] at hrest

/-- The second emulator comes from the first one by what happened. -/
structure Passed (e : Emulator) (hs : List Happening) (e' : Emulator) : Prop where
  listeners : e'.listeners = e.listeners
  notices : e'.notices = e.notices ++ (hs.flatMap (·.heard e.listeners)).toArray
  sound : Course e.machine.sound.value hs e'.machine.sound.value

namespace Passed

theorem idle {e e' : Emulator} (hlisteners : e'.listeners = e.listeners)
    (hnotices : e'.notices = e.notices) (hsound : e'.machine.sound = e.machine.sound) :
    Passed e [] e' where
  listeners := hlisteners
  notices := hnotices.trans Array.append_empty.symm
  sound := by
    rw [hsound]
    exact .nil _

theorem refl (e : Emulator) : Passed e [] e :=
  idle rfl rfl rfl

theorem trans {e e' e'' : Emulator} {hs hs' : List Happening} (h : Passed e hs e')
    (h' : Passed e' hs' e'') : Passed e (hs ++ hs') e'' where
  listeners := h'.listeners.trans h.listeners
  notices := by
    rw [h'.notices, h.notices, h.listeners, Array.append_assoc, List.flatMap_append]
    simp only [List.append_toArray]
  sound := h.sound.trans h'.sound

theorem single {h : Happening} {e' : Emulator} (hlisteners : e'.listeners = h.before.listeners)
    (hnotices : e'.notices = h.before.notices ++ (h.heard h.before.listeners).toArray)
    (hsound : e'.machine.sound = h.after.machine.sound) : Passed h.before [h] e' where
  listeners := hlisteners
  notices := by rwa [List.flatMap_singleton]
  sound := by
    rw [hsound]
    exact .cons (.nil _)

theorem unheard {h : Happening} {e' : Emulator} (hquiet : h.announced = none)
    (hlisteners : e'.listeners = h.before.listeners) (hnotices : e'.notices = h.before.notices)
    (hsound : e'.machine.sound = h.after.machine.sound) : Passed h.before [h] e' := by
  refine single hlisteners ?_ hsound
  rw [Happening.heard_of_none hquiet, hnotices]
  exact Array.append_empty.symm

end Passed

theorem step_state {e : Emulator} (hstop : e.stopped = false) :
    e.step.2 = (e.executeWith notify).2 := by
  rw [step, stepWith, hstop]
  obtain ⟨_ | _, e'⟩ := e.executeWith notify <;> rfl

theorem passed_step {e : Emulator} (hstop : e.stopped = false) (hrecording : Recording e.listeners) :
    Passed e [.instruction e] e.step.2 := by
  obtain ⟨machine, trace, log, hframe⟩ := silent_frame e
  have hannounced : (Happening.instruction e).announced = (silent e).1.toOption.join := rfl
  have hafter : (Happening.instruction e).after = (silent e).2 := rfl
  rw [step_state hstop, executeWith_eq]
  generalize silent e = reply at hframe hannounced hafter ⊢
  -- Listeners are called for an event only, and find the machine as the instruction left it.
  obtain ⟨err | _ | event, e'⟩ := reply
  · subst hframe
    exact Passed.unheard hannounced rfl rfl (by rw [hafter])
  · subst hframe
    exact Passed.unheard hannounced rfl rfl (by rw [hafter])
  · subst hframe
    have hemit := @emit_record { e with machine, trace, log } hrecording event
    dsimp only at hemit ⊢
    rw [hemit]
    refine Passed.single (h := .instruction e) rfl ?_ (by rw [hafter]; rfl)
    rw [Happening.heard_of_some hannounced, hafter]
    rfl

theorem runWith_state_of_stopped {e : Emulator} (hstop : e.stopped = true) (count : Nat) :
    (e.runWith notify count).2 = e := by
  obtain ⟨reason, hreason⟩ : ∃ reason, e.stopReason = some reason := by
    rw [stopped, Option.isSome_iff_exists] at hstop
    obtain ⟨s, hs⟩ := hstop
    exact ⟨s.reason, by rw [stopReason, hs, Option.map_some]⟩
  cases count with
  | zero => rfl
  | succ count => rw [runWith, stepWith, if_pos hstop, hreason]

theorem passed_countdown {e : Emulator} (hrecording : Recording e.listeners) (ticks : Int) :
    Passed e [.countdown e ticks] (e.decayWith notify ticks).2 := by
  rw [decay_record hrecording]
  by_cases hended : (e.machine.sound.decay ticks).1 = true
  · have hannounced : (Happening.countdown e ticks).announced = some .soundOff := if_pos hended
    rw [retimed, if_pos ((Countdown.decay_ended_iff _ _).mp hended)]
    refine Passed.single (h := .countdown e ticks) rfl ?_ rfl
    rw [Happening.heard_of_some hannounced]
    rfl
  · have hannounced : (Happening.countdown e ticks).announced = none := if_neg hended
    rw [retimed, if_neg fun h => hended ((Countdown.decay_ended_iff _ _).mpr h)]
    exact Passed.unheard hannounced rfl rfl rfl

/-- The emulator after a batch that no fault ended, and its timers. -/
def counted (e : Emulator) (elapsed : Binary64) : Emulator :=
  match e.clock.ticksDue elapsed with
  | .error _ => e
  | .ok ticks => (e.decayWith notify ticks).2

theorem countdowns_of_fault {e : Emulator} (hfault : e.fault?.isSome = true) (elapsed : Binary64) :
    countdowns e elapsed = [] := by
  rw [countdowns]
  split
  · rfl
  · rw [if_pos hfault]

section

variable {e e' : Emulator} {elapsed : Binary64} {cycles : Int} (hstop : e.stopped = false)
  (hcycles : e.clock.cyclesDue elapsed = .ok cycles)

include hstop hcycles

theorem advance_state_of_batch {count : Nat}
    (hbatch : e.batchWith notify 0 cycles.toNat = (.ok count, e')) :
    (e.advance elapsed).2 = counted e' elapsed := by
  rw [advance, advanceWith, advanceBy, hstop, hcycles, counted]
  simp only [hbatch, Bool.false_eq_true, if_false]
  cases e'.clock.ticksDue elapsed with
  | error err => rfl
  | ok ticks =>
      dsimp only
      obtain ⟨_ | _, e''⟩ := e'.decayWith notify ticks <;> rfl

theorem advance_state_of_error {err : Error}
    (hbatch : e.batchWith notify 0 cycles.toNat = (.error err, e')) :
    (e.advance elapsed).2 = e' := by
  rw [advance, advanceWith, advanceBy, hstop, hcycles]
  simp only [hbatch, Bool.false_eq_true, if_false]

end

/-- A call that neither adds nor removes listeners. -/
def Driving : HostCall → Prop
  | .listen _ _ | .request (.listen _ _) | .request (.unlisten _ _) => False
  | _ => True

/-- A relation between an emulator, what happens, and the emulator that comes of it. If it tells the
truth of each happening, and of what the host does between them, it tells it of a session. -/
structure Recounts (P : Emulator → List Happening → Emulator → Prop) : Prop where
  listeners : ∀ {e hs e'}, P e hs e' → e'.listeners = e.listeners
  refl : ∀ e, P e [] e
  trans : ∀ {e e' e'' hs hs'}, P e hs e' → P e' hs' e'' → P e (hs ++ hs') e''
  step : ∀ {e}, e.stopped = false → Recording e.listeners → P e [.instruction e] e.step.2
  countdown : ∀ {e} ticks, Recording e.listeners →
    P e [.countdown e ticks] (e.decayWith notify ticks).2
  refuse : ∀ e log, P e [] { e with log }
  load : ∀ e program clock, P e [.restart e] (loaded e program clock)
  reset : ∀ e, P e [.restart e] e.reset
  keys : ∀ e keypad, P e [] { e with machine := { e.machine with keypad } }
  retime : ∀ {e hs e'} clock, P { e with clock } hs e' → P e hs e'

section

variable {P : Emulator → List Happening → Emulator → Prop} (hP : Recounts P) {e : Emulator}

include hP

theorem recount_load (e : Emulator) (program : List UInt8) (speed : Option SpeedRequest) :
    P e (happenings e (.load program speed)) (e.load program speed).2 := by
  rcases load_cases e program speed with ⟨err, log, -, hload⟩ | ⟨clock, -, hload⟩
  · simp only [HostCall.load, happenings, hload]
    exact hP.refuse e log
  · simp only [HostCall.load, happenings, hload]
    exact hP.load e program clock

variable (hrecording : Recording e.listeners)

include hrecording

theorem recount_trail (count : Nat) : P e (trail e count) (stepped e (executed e count)) := by
  induction count generalizing e with
  | zero => exact hP.refl e
  | succ count ih =>
      rw [trail, executed]
      by_cases hstop : e.stopped = true
      · rw [if_pos hstop, if_pos hstop]
        exact hP.refl e
      · rw [if_neg hstop, if_neg hstop]
        have hstep := hP.step (by simpa using hstop) hrecording
        exact hP.trans hstep (ih (by rwa [hP.listeners hstep]))

theorem recount_run (count : Nat) : P e (trail e count) (e.runWith notify count).2 := by
  have htrail := recount_trail hP hrecording count
  by_cases hstop : e.stopped = true
  · rw [executed_of_stopped hstop] at htrail
    rwa [runWith_state_of_stopped hstop]
  · have htogether := run_batch (by simpa using hstop) hrecording 0 count
    generalize stepped e (executed e count) = e', e.runWith notify count = run,
      e.batchWith notify 0 count = batch at htogether htrail ⊢
    cases htogether with
    | timeout | halt | fault => exact htrail

theorem recount_counted (hfault : e.fault?.isSome = false) (elapsed : Binary64) :
    P e (countdowns e elapsed) (counted e elapsed) := by
  rw [countdowns, counted]
  cases e.clock.ticksDue elapsed with
  | error err => exact hP.refl e
  | ok ticks =>
      simp only [hfault, Bool.false_eq_true, if_false]
      exact hP.countdown ticks hrecording

theorem recount_advance (elapsed : Binary64) :
    P e (advanced e elapsed) (e.advance elapsed).2 := by
  by_cases hstop : e.stopped = true
  · rw [advance, advanceWith, advanceBy, advanced, if_pos hstop, if_pos hstop]
    exact hP.refl e
  · have hgoes : e.stopped = false := by simpa using hstop
    rw [advanced, if_neg hstop]
    cases hcycles : e.clock.cyclesDue elapsed with
    | error err =>
        rw [advance, advanceWith, advanceBy, if_neg hstop, hcycles]
        exact hP.refl e
    | ok cycles =>
        have htrail := recount_trail hP hrecording cycles.toNat
        have htogether := run_batch hgoes hrecording 0 cycles.toNat
        have hkept : Recording (stepped e (executed e cycles.toNat)).listeners := by
          rwa [hP.listeners htrail]
        dsimp only
        generalize stepped e (executed e cycles.toNat) = e', e.runWith notify cycles.toNat = run,
          hbatch : e.batchWith notify 0 cycles.toNat = batch at htogether htrail hkept ⊢
        cases htogether with
        | timeout _ hnone =>
            have hfault : e'.fault?.isSome = false := by rw [fault?_of_running hnone]; rfl
            rw [advance_state_of_batch hgoes hcycles hbatch]
            exact hP.trans htrail (recount_counted hP hkept hfault elapsed)
        | halt _ hhalted =>
            have hfault : e'.fault?.isSome = false := by rw [fault?_of_stop hhalted]; rfl
            rw [advance_state_of_batch hgoes hcycles hbatch]
            exact hP.trans htrail (recount_counted hP hkept hfault elapsed)
        | fault _ hfaulted =>
            have hfault : e'.fault?.isSome = true := by rw [fault?_of_stop hfaulted]; rfl
            rw [advance_state_of_error hgoes hcycles hbatch, countdowns_of_fault hfault]
            exact hP.trans htrail (hP.refl e')

theorem recount_perform {c : HostCall} (hc : Driving c) :
    P e (happenings e c) (e.perform c).2 := by
  cases c with
  | listen event l => exact hc.elim
  | request r =>
      cases r with
      | listen event name | unlisten event name => exact hc.elim
      | step =>
          by_cases hstop : e.stopped = true
          · rw [perform, serve, stepWith, happenings, trail, if_pos hstop, if_pos hstop]
            exact hP.refl e
          · rw [happenings, trail, if_neg hstop]
            exact hP.step (by simpa using hstop) hrecording
      | run maxSteps => exact recount_run hP hrecording _
      | advance elapsed => exact recount_advance hP hrecording elapsed
      | tick now =>
          refine hP.retime (e.clock.elapsedSince now).2 ?_
          exact recount_advance hP (e := { e with clock := (e.clock.elapsedSince now).2 })
            hrecording (e.clock.elapsedSince now).1
      | keyDown key | keyUp key => exact hP.keys e _
      | reset => exact hP.reset e
      | load program speed => exact recount_load hP e program speed

theorem recount_performAll {calls : List HostCall} (hcalls : ∀ c ∈ calls, Driving c) :
    P e (history e calls) (e.performAll calls).2 := by
  induction calls generalizing e with
  | nil => exact hP.refl e
  | cons c rest ih =>
      have hfirst := recount_perform hP hrecording (hcalls c List.mem_cons_self)
      have hrest := ih (by rwa [hP.listeners hfirst])
        fun c hc => hcalls c (List.mem_cons_of_mem _ hc)
      exact hP.trans hfirst hrest

end

theorem passed_recounts : Recounts Passed where
  listeners h := h.listeners
  refl := .refl
  trans := .trans
  step := passed_step
  countdown ticks h := passed_countdown h ticks
  refuse _ _ := .idle rfl rfl rfl
  load e program clock := by
    obtain ⟨log, hloaded⟩ := loaded_eq e program clock
    rw [hloaded]
    exact .unheard (h := .restart e) rfl rfl rfl rfl
  reset e := .unheard (h := .restart e) rfl rfl rfl rfl
  keys _ _ := .idle rfl rfl rfl
  retime _ h := ⟨h.listeners, h.notices, h.sound⟩

theorem passed_perform {e : Emulator} (hrecording : Recording e.listeners) {c : HostCall}
    (hc : Driving c) : Passed e (happenings e c) (e.perform c).2 :=
  recount_perform passed_recounts hrecording hc

theorem passed_performAll {e : Emulator} (hrecording : Recording e.listeners)
    {calls : List HostCall} (hcalls : ∀ c ∈ calls, Driving c) :
    Passed e (history e calls) (e.performAll calls).2 :=
  recount_performAll passed_recounts hrecording hcalls

end Chip8.Proofs.History
