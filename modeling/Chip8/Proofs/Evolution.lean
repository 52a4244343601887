import Chip8.Proofs.History

/-!
How an emulator comes from another one, whatever its listeners do: by instructions, countdowns and
restarts, in the order in which they happen, and by what a host or a listener does between them,
which leaves the machine alone but for its keys and its stop.
-/

namespace Chip8.Proofs.Evolution

open Chip8.Emulator
open Chip8.Proofs.Batches
open Chip8.Proofs.History
open Chip8.Proofs.Loading
open Chip8.Proofs.NoteTaking
open Chip8.Proofs.Stepping
open Chip8.Proofs.TwoRuns

inductive Evolves (e₀ : Emulator) : List Happening → Emulator → Prop
  | start : Evolves e₀ [] e₀
  | instruction {past : List Happening} {e : Emulator} (h : Evolves e₀ past e)
      (hstop : e.stopped = false) : Evolves e₀ (past ++ [.instruction e]) (silent e).2
  | countdown {past : List Happening} {e : Emulator} (h : Evolves e₀ past e) (ticks : Int) :
      Evolves e₀ (past ++ [.countdown e ticks]) (countDown e ticks)
  /-- A reset, or a load. -/
  | restart {past : List Happening} {e e' : Emulator} (h : Evolves e₀ past e)
      (hmachine : e'.machine = { random := e.machine.random, memory := e'.machine.memory }) :
      Evolves e₀ (past ++ [.restart e]) e'
  | latch {past : List Happening} {e : Emulator} (h : Evolves e₀ past e) (f : Fault) :
      Evolves e₀ past (e.latch f)
  | beside {past : List Happening} {e e' : Emulator} (h : Evolves e₀ past e)
      (hmachine : e'.machine = { e.machine with keypad := e'.machine.keypad }) :
      Evolves e₀ past e'

theorem Evolves.cut {e₀ e : Emulator} {past : List Happening} {h : Happening}
    {later : List Happening} (hevolves : Evolves e₀ (past ++ h :: later) e) :
    Evolves e₀ past h.before := by
  generalize hhistory : past ++ h :: later = hs at hevolves
  induction hevolves generalizing later with
  | start => cases past <;> cases hhistory
  | latch _ _ ih | beside _ _ ih => exact ih hhistory
  | instruction hpast _ ih | countdown hpast _ ih | restart hpast _ ih =>
      rcases List.eq_nil_or_concat later with rfl | ⟨later, last, rfl⟩
      · obtain ⟨rfl, hlast⟩ := List.append_inj' hhistory rfl
        cases hlast
        exact hpast
      · rw [List.concat_eq_append, ← List.cons_append, ← List.append_assoc] at hhistory
        exact ih (List.append_inj' hhistory rfl).1

/-- Every evolution to the first emulator goes on to the second one by what happens. -/
structure Continues (e : Emulator) (hs : List Happening) (e' : Emulator) : Prop where
  listeners : e'.listeners = e.listeners
  evolves : ∀ {e₀ past}, Evolves e₀ past e → Evolves e₀ (past ++ hs) e'

namespace Continues

variable {e e' e'' : Emulator} {hs hs' : List Happening}

theorem idle (hlisteners : e'.listeners = e.listeners)
    (hmachine : e'.machine = { e.machine with keypad := e'.machine.keypad }) :
    Continues e [] e' where
  listeners := hlisteners
  evolves h := by
    rw [List.append_nil]
    exact h.beside hmachine

theorem trans (h : Continues e hs e') (h' : Continues e' hs' e'') :
    Continues e (hs ++ hs') e'' where
  listeners := h'.listeners.trans h.listeners
  evolves hpast := by
    rw [← List.append_assoc]
    exact h'.evolves (h.evolves hpast)

theorem step (hstop : e.stopped = false) (hrecording : Recording e.listeners) :
    Continues e [.instruction e] e.step.2 := by
  obtain ⟨hmachine, hlisteners⟩ : e.step.2.machine = (silent e).2.machine ∧
      e.step.2.listeners = e.listeners := by
    rw [step_state hstop]
    rcases hsilent : silent e with ⟨err | event, e'⟩
    · rw [executeWith_eq, hsilent]
      exact ⟨rfl, by rw [← listeners_silent e, hsilent]⟩
    · obtain ⟨e'', hexecute, hmachine, hran⟩ := executeWith_of_silent hrecording hsilent
      rw [hexecute]
      exact ⟨hmachine, hran.listeners⟩
  refine ⟨hlisteners, fun hpast => (hpast.instruction hstop).beside ?_⟩
  rw [hmachine]

theorem countdown (hrecording : Recording e.listeners) (ticks : Int) :
    Continues e [.countdown e ticks] (e.decayWith notify ticks).2 := by
  obtain ⟨notices, hretimed⟩ := retimed_frame e (e.machine.delay.decay ticks).2
    (e.machine.sound.decay ticks).2
  rw [decay_record hrecording, hretimed]
  exact ⟨rfl, fun hpast => (hpast.countdown ticks).beside rfl⟩

end Continues

theorem continues_recounts : Recounts Continues where
  listeners h := h.listeners
  refl _ := .idle rfl rfl
  trans := .trans
  step := .step
  countdown ticks h := .countdown h ticks
  refuse _ _ := .idle rfl rfl
  load e program clock := by
    obtain ⟨log, hloaded⟩ := loaded_eq e program clock
    rw [hloaded]
    exact ⟨rfl, fun hpast => hpast.restart rfl⟩
  reset _ := ⟨rfl, fun hpast => hpast.restart rfl⟩
  keys _ _ := .idle rfl rfl
  retime _ h := ⟨h.listeners, fun hpast => h.evolves (hpast.beside rfl)⟩

/-- An emulator related to itself that comes from a given one. -/
structure Evolved (e₀ e₁ e₂ : Emulator) : Prop where
  same : e₁ = e₂
  evolves : ∃ hs, Evolves e₀ hs e₁

theorem agree_evolved {e₀ : Emulator} {α : Type} {r : Reply α} {hs : List Happening}
    (h : Evolves e₀ hs r.2) : Agree (Evolved e₀) (fun _ _ _ => True) r r :=
  agree_of_answers rfl ⟨rfl, hs, h⟩

theorem evolved_simulation (e₀ : Emulator) :
    Simulation (Evolved e₀) (fun _ _ _ => True) (fun _ => True) where
  stop h := by rw [h.same]
  clock h := by rw [h.same]
  listeners h := by rw [h.same]
  allListeners _ := ⟨fun _ _ => trivial, fun _ _ => trivial⟩
  silent := by
    rintro e _ ⟨rfl, hs, h⟩ hstop
    exact agree_evolved (h.instruction hstop)
  latch := by
    rintro e _ f ⟨rfl, hs, h⟩ -
    exact ⟨⟨rfl, hs, h.latch f⟩, trivial⟩
  countDown := by
    rintro e _ ticks ⟨rfl, hs, h⟩
    exact ⟨rfl, rfl, _, h.countdown ticks⟩
  retime := by
    rintro e _ clock ⟨rfl, hs, h⟩
    exact ⟨rfl, hs, h.beside rfl⟩
  load := by
    rintro e _ program speed ⟨rfl, hs, h⟩
    exact agree_evolved ((recount_load continues_recounts e program speed).evolves h)
  reset := by
    rintro e _ ⟨rfl, hs, h⟩
    exact ⟨rfl, _, h.restart rfl⟩
  keys := by
    rintro e _ value f ⟨rfl, hs, h⟩
    exact agree_evolved ((continues_recounts.keys e _).evolves h)
  listen := by
    rintro e _ event l - ⟨rfl, hs, h⟩
    exact ⟨rfl, hs, h.beside rfl⟩
  unlisten := by
    rintro e _ event name ⟨rfl, hs, h⟩
    exact ⟨rfl, hs, h.beside rfl⟩
  recording _ _ := trivial
  noted := by
    rintro e _ l - ⟨rfl, hs, h⟩
    exact ⟨rfl, hs, h.beside rfl⟩
  script := by
    rintro e _ l - ⟨rfl, -⟩
    exact (raisesOnly_any _).matched (fun _ _ _ _ _ => trivial) fun _ _ h => by rw [h.same]

/-- However deep listeners nest, calls do nothing to the machine but what happens in some order. -/
theorem evolves_of_calls (e : Emulator) (calls : List HostCall) :
    ∃ hs, Evolves e hs (e.performAll calls).2 := by
  have hcalls : ∀ c ∈ calls, Brings (fun _ => True) c := by
    intro c _
    cases c <;> trivial
  exact (agree_performAll (evolved_simulation e) hcalls ⟨rfl, [], .start⟩).2.evolves

theorem evolves_of_recording {e : Emulator} (hrecording : Recording e.listeners)
    {calls : List HostCall} (hcalls : ∀ c ∈ calls, Driving c) :
    Evolves e (history e calls) (e.performAll calls).2 :=
  (recount_performAll continues_recounts hrecording hcalls).evolves .start

end Chip8.Proofs.Evolution
