import Chip8.Proofs.Footprint
import Chip8.Proofs.Loading
import Chip8.Proofs.Overlay

namespace Chip8.Proofs.StaleSlots

open Chip8.Emulator
open Chip8.Machine
open Chip8.Proofs.Execution
open Chip8.Proofs.Footprint
open Chip8.Proofs.Loading
open Chip8.Proofs.Overlay
open Chip8.Proofs.Stepping
open Chip8.Proofs.TwoRuns

def restacked (stack : Vector UInt16 16) (m : Machine) : Machine :=
  overlaid id (fun _ => stack) m

/-- Machines that differ in nothing but slots at and above the stack pointer. -/
inductive SameBelow (m : Machine) : Machine → Prop
  | mk (stack : Vector UInt16 16)
      (hbelow : ∀ (k : Nat) (hk : k < 16), k < m.registers.sp.val →
        stack[k] = m.registers.stack[k]) : SameBelow m (restacked stack m)

theorem SameBelow.refl (m : Machine) : SameBelow m m :=
  .mk m.registers.stack fun _ _ _ => rfl

structure SameEnd (x y : Execution) : Prop where
  machine : SameBelow x.machine y.machine
  remarks : x.remarks = y.remarks
  result : x.result = y.result

section

variable {m : Machine} {stack : Vector UInt16 16}
  (hbelow : ∀ (k : Nat) (hk : k < 16), k < m.registers.sp.val → stack[k] = m.registers.stack[k])

include hbelow

theorem sameEnd_call (target : Nat) :
    SameEnd (m.call target) ((restacked stack m).call target) := by
  unfold Machine.call Registers.push
  by_cases hfree : m.registers.sp.val < 16
  · rw [dif_pos hfree, dif_pos (by exact hfree)]
    -- The slot that a call writes is the first one that may differ.
    refine ⟨.mk (stack.set m.registers.sp.val _) ?_, rfl, rfl⟩
    intro k hk hlt
    simp only [Vector.getElem_set]
    split
    · rfl
    · exact hbelow k hk (by simp only at hlt; omega)
  · rw [dif_neg hfree, dif_neg (by exact hfree)]
    exact ⟨.mk stack hbelow, rfl, rfl⟩

theorem sameEnd_ret : SameEnd m.ret (restacked stack m).ret := by
  rcases ret_cases m with ⟨hempty, hret⟩ | ⟨k, hk, hopen, hret⟩
  · rcases ret_cases (restacked stack m) with ⟨-, hret'⟩ | ⟨_, _, hopen', -⟩
    · rw [hret, hret']
      exact ⟨.mk stack hbelow, rfl, rfl⟩
    · change m.registers.sp.val = _ at hopen'
      rw [hempty] at hopen'
      cases hopen'
  · rcases ret_cases (restacked stack m) with ⟨hempty', -⟩ | ⟨k', _, hopen', hret'⟩
    · change m.registers.sp = 0 at hempty'
      rw [hempty'] at hopen
      cases hopen
    · change m.registers.sp.val = k' + 1 at hopen'
      obtain rfl : k = k' := by omega
      -- The slot that a return reads is the last one that may not differ.
      have hnewest : (restacked stack m).registers.stack[k] = m.registers.stack[k] :=
        hbelow k hk (by omega)
      rw [hret, hret', hnewest]
      refine ⟨.mk stack ?_, rfl, rfl⟩
      intro j hj hlt
      exact hbelow j hj (by simp only at hlt; omega)

theorem sameEnd_execute (op : Opcode) (word : Int) :
    SameEnd (m.execute op word) ((restacked stack m).execute op word) := by
  by_cases hcall : op = .call
  · subst hcall
    exact sameEnd_call hbelow _
  · by_cases hret : op = .ret
    · subst hret
      exact sameEnd_ret hbelow
    · have hexecute : (restacked stack m).execute op word =
          carried id (fun _ => stack) (m.execute op word) := by
        by_cases hsound : op = .setSound
        · subst hsound
          rfl
        · exact execute_overlaid id _ hsound hcall hret m word
      have howned := owned_of_effect (effect_execute m op word)
      obtain ⟨hdepth, hstack⟩ := howned.callStack hcall hret
      rw [hexecute]
      refine ⟨.mk stack ?_, rfl, rfl⟩
      intro k hk hlt
      rw [hdepth] at hlt
      rw [hbelow k hk hlt]
      simp only [hstack]

end

/-- Emulators that differ in nothing but slots at and above the stack pointer. -/
inductive Stale (e : Emulator) : Emulator → Prop
  | mk {machine : Machine} (h : SameBelow e.machine machine) : Stale e { e with machine }

theorem Stale.refl (e : Emulator) : Stale e e :=
  .mk (.refl _)

section

variable {e₁ e₂ : Emulator} (h : Stale e₁ e₂)

include h

theorem Stale.latch (f : Fault) : Stale (e₁.latch f) (e₂.latch f) := by
  obtain ⟨⟨stack, hbelow⟩⟩ := h
  exact .mk (.mk stack hbelow)

theorem Stale.traced (op : Opcode) (word : Nat) :
    Stale (e₁.traced op word) (e₂.traced op word) := by
  obtain ⟨⟨stack, hbelow⟩⟩ := h
  rw [Emulator.traced, Emulator.traced]
  -- The line of an instruction does not show the slots.
  split
  · exact .mk (.mk stack hbelow)
  · exact .mk (.mk stack hbelow)

theorem Stale.commit {x y : Execution} (hxy : SameEnd x y) :
    Stale (e₁.commit x) (e₂.commit y) := by
  obtain ⟨hmachine, hremarks, -⟩ := hxy
  obtain ⟨-⟩ := h
  rw [Emulator.commit, Emulator.commit, ← hremarks]
  exact .mk hmachine

theorem stale_silent : (silent e₁).1 = (silent e₂).1 ∧ Stale (silent e₁).2 (silent e₂).2 := by
  have hword : e₁.nextWord = e₂.nextWord := by
    obtain ⟨⟨stack, hbelow⟩⟩ := h
    rfl
  have hcounter : e₁.machine.registers.pc = e₂.machine.registers.pc := by
    obtain ⟨⟨stack, hbelow⟩⟩ := h
    rfl
  simp only [silent, ← hword, ← hcounter]
  cases Opcode.lookup e₁.nextWord with
  | none => exact ⟨rfl, h.latch _⟩
  | some op =>
      have hend : SameEnd (e₁.machine.execute op e₁.nextWord)
          (e₂.machine.execute op e₁.nextWord) := by
        obtain ⟨⟨stack, hbelow⟩⟩ := h
        exact sameEnd_execute hbelow op _
      have hcommitted := (h.traced op e₁.nextWord).commit hend
      dsimp only
      rw [← hend.result]
      split
      · exact ⟨rfl, hcommitted.latch _⟩
      · exact ⟨rfl, hcommitted⟩

theorem Stale.warned (program : List UInt8) :
    Stale (Emulator.warned e₁ program) (Emulator.warned e₂ program) := by
  obtain ⟨⟨stack, hbelow⟩⟩ := h
  rw [Emulator.warned, Emulator.warned]
  split
  · exact .mk (.mk stack hbelow)
  · exact .mk (.mk stack hbelow)

theorem Stale.loaded (program : List UInt8) (clock : Clock) :
    Stale (Loading.loaded e₁ program clock) (Loading.loaded e₂ program clock) := by
  have hsame : Loading.loaded e₂ program clock = Loading.loaded e₁ program clock := by
    obtain ⟨⟨stack, hbelow⟩⟩ := h
    rw [Loading.loaded, Loading.loaded, Emulator.warned, Emulator.warned]
    split <;> rfl
  rw [hsame]
  exact .refl _

theorem stale_load (program : List UInt8) (speed : Option SpeedRequest) :
    (e₁.load program speed).1 = (e₂.load program speed).1 ∧
      Stale (e₁.load program speed).2 (e₂.load program speed).2 := by
  have hclock : e₁.clockFor speed = e₂.clockFor speed := by
    obtain ⟨-⟩ := h
    cases speed <;> rfl
  have hstrict : e₁.strictLoad = e₂.strictLoad := by
    obtain ⟨-⟩ := h
    rfl
  rw [load_eq, load_eq, hclock, hstrict]
  split
  · exact ⟨rfl, h⟩
  · split
    · exact ⟨rfl, h.warned program⟩
    · exact ⟨rfl, h.loaded program _⟩

end

/-- A listener that does not look at such slots: it does the same where they differ. -/
def Heedless (l : Listener) : Prop :=
  ∀ e₁ e₂, Stale e₁ e₂ → Matched Stale (fun _ _ _ => True) (script e₁ l) (script e₂ l)

theorem matched_once (r : Request) : Matched Stale (fun _ _ _ => True) (.once r) (.once r) := by
  refine .ask r fun answer e₁ e₂ _ _ => ?_
  cases answer with
  | ok answer => exact .done
  | error err => exact .fail err fun _ _ _ _ _ => trivial

theorem heedless_of_action {l : Listener} (h : ∀ behave, l.action ≠ .script behave) :
    Heedless l := by
  obtain ⟨name, event, action⟩ := l
  intro e₁ e₂ _
  cases action with
  | record => exact .done
  | fail err => exact .fail err fun _ _ _ _ _ => trivial
  | key _ | remove _ | add _ | step | load _ => exact matched_once _
  | script behave => exact absurd rfl (h behave)

structure StaleAlongside (e₁ e₂ : Emulator) : Prop where
  stale : Stale e₁ e₂
  heedless : AllListeners Heedless e₁.listeners

theorem matched_alongside {s₁ s₂ : Script}
    (h : Matched Stale (fun _ _ _ => True) s₁ s₂) :
    Matched StaleAlongside (fun _ _ _ => True) s₁ s₂ := by
  induction h with
  | done => exact .done
  | fail err _ => exact .fail err fun _ _ _ _ _ => trivial
  | ask r _ ih => exact .ask r fun answer e₁ e₂ hR hpass => ih answer e₁ e₂ hR.stale hpass

theorem stale_simulation : Simulation StaleAlongside (fun _ _ _ => True) Heedless where
  stop := by
    rintro _ _ ⟨⟨⟨stack, hbelow⟩⟩, -⟩
    rfl
  clock := by
    rintro _ _ ⟨⟨-⟩, -⟩
    rfl
  listeners := by
    rintro _ _ ⟨⟨-⟩, -⟩
    rfl
  allListeners h := h.heedless
  silent := by
    rintro e₁ e₂ ⟨h, hheedless⟩ -
    obtain ⟨hanswer, hstale⟩ := stale_silent h
    exact agree_of_answers hanswer ⟨hstale, by rwa [listeners_silent]⟩
  latch := by
    rintro e₁ e₂ f ⟨h, hheedless⟩ -
    exact ⟨⟨h.latch f, hheedless⟩, trivial⟩
  countDown := by
    rintro e₁ _ ticks ⟨⟨⟨stack, hbelow⟩⟩, hheedless⟩
    exact ⟨rfl, .mk (.mk stack hbelow), hheedless⟩
  retime := by
    rintro e₁ _ clock ⟨⟨h⟩, hheedless⟩
    exact ⟨.mk h, hheedless⟩
  load := by
    rintro e₁ e₂ program speed ⟨h, hheedless⟩
    obtain ⟨hanswer, hstale⟩ := stale_load h program speed
    exact agree_of_answers hanswer ⟨hstale, by rwa [listeners_load]⟩
  reset := by
    rintro e₁ _ ⟨⟨⟨stack, hbelow⟩⟩, hheedless⟩
    exact ⟨.mk (.refl _), hheedless⟩
  keys := by
    rintro e₁ _ value f ⟨⟨⟨stack, hbelow⟩⟩, hheedless⟩
    exact agree_of_answers rfl ⟨.mk (.mk stack hbelow), hheedless⟩
  listen := by
    rintro e₁ _ event l hl ⟨⟨h⟩, hheedless⟩
    exact ⟨.mk h, hheedless.add event hl⟩
  unlisten := by
    rintro e₁ _ event name ⟨⟨h⟩, hheedless⟩
    exact ⟨.mk h, hheedless.remove event name⟩
  recording _ _ := heedless_of_action nofun
  noted := by
    rintro e₁ _ l - ⟨⟨⟨stack, hbelow⟩⟩, hheedless⟩
    exact ⟨.mk (.mk stack hbelow), hheedless⟩
  script := by
    rintro e₁ e₂ l hl ⟨h, -⟩
    exact matched_alongside (hl e₁ e₂ h)

/-- All calls get the same answers, whatever such slots hold, and leave emulators that again differ
in such slots only. -/
theorem stale_of_calls {e₁ e₂ : Emulator} (h : Stale e₁ e₂)
    (hlisteners : AllListeners Heedless e₁.listeners) {calls : List HostCall}
    (hcalls : ∀ c ∈ calls, Brings Heedless c) :
    (e₁.performAll calls).1 = (e₂.performAll calls).1 ∧
      Stale (e₁.performAll calls).2 (e₂.performAll calls).2 := by
  obtain ⟨hanswers, hstates⟩ := agree_performAll stale_simulation hcalls ⟨h, hlisteners⟩
  exact ⟨hanswers, hstates.stale⟩

end Chip8.Proofs.StaleSlots
