import Chip8.Proofs.Decoding
import Chip8.Proofs.Evolution
import Chip8.Proofs.Footprint
import Chip8.Proofs.Stopped

namespace Chip8.Proofs.RandomStream

open Chip8.Emulator
open Chip8.Machine
open Chip8.Proofs.Decoding
open Chip8.Proofs.Evolution
open Chip8.Proofs.Execution
open Chip8.Proofs.Footprint
open Chip8.Proofs.History
open Chip8.Proofs.Loading
open Chip8.Proofs.MemoryCells
open Chip8.Proofs.NoteTaking
open Chip8.Proofs.Stepping
open Chip8.Proofs.Stopped

/-- Whether a word is executed that asks for a random byte: one whose first digit is C. -/
def asks : Happening → Bool
  | .instruction e => decide (e.nextWord / 4096 = 0xC)
  | _ => false

def asked (past : List Happening) : Nat :=
  past.countP asks

theorem asked_concat (past : List Happening) (h : Happening) :
    asked (past ++ [h]) = if asks h then asked past + 1 else asked past := by
  rw [asked, List.countP_append, List.countP_singleton]
  split <;> rfl

theorem lookup_random_iff (e : Emulator) :
    Opcode.lookup e.nextWord = some .random ↔ e.nextWord / 4096 = 0xC := by
  have hfamily := family_of_lt (readWord_lt e.machine.memory e.machine.registers.pc)
  rw [lookup_eq_some_iff_family rfl, nextWord, hfamily]
  change _ = 0xC000 ↔ _
  omega

theorem random_execute (m : Machine) (op : Opcode) (word : Int) :
    (m.execute op word).machine.random = if op = .random then m.random.next.2 else m.random := by
  have hframe := frame_execute m op word
  split
  · rename_i hop
    exact (hframe.draws hop).1
  · rename_i hop
    exact Classical.byContradiction fun hchanged => hop (hframe.random hchanged)

theorem random_silent (e : Emulator) :
    (silent e).2.machine.random =
      if e.nextWord / 4096 = 0xC then e.machine.random.next.2 else e.machine.random := by
  simp only [← lookup_random_iff]
  have houtcome := outcome_silent e
  generalize silent e = reply at houtcome ⊢
  cases houtcome with
  | illegal hop =>
      rw [hop, if_neg nofun]
      rfl
  | @stackFault op f hop hf =>
      rw [hop, if_neg (by rintro ⟨⟩; cases hf), latch, note, machine_traced]
  | @done op event hop _ _ =>
      simp only [hop, Option.some.injEq]
      exact random_execute e.machine op _

theorem random_after (h : Happening) :
    h.after.machine.random =
      if asks h then h.before.machine.random.next.2 else h.before.machine.random := by
  cases h with
  | instruction e =>
      simp only [asks, decide_eq_true_eq]
      exact random_silent e
  | countdown e ticks => rfl
  | restart e => rfl

def drawnOn (count : Nat) (source : RandomSource) : RandomSource :=
  (fun r : RandomSource => r.next.2)^[count] source

theorem drawnOn_ofSequence (value : Nat → UInt8) (count : Nat) :
    drawnOn count (.ofSequence value) = { generator := .sequence value, drawn := count } := by
  induction count with
  | zero => rfl
  | succ count ih =>
      rw [drawnOn, Function.iterate_succ_apply', ← drawnOn, ih]
      rfl

theorem random_of_evolves {e₀ e : Emulator} {past : List Happening} (h : Evolves e₀ past e) :
    e.machine.random = drawnOn (asked past) e₀.machine.random := by
  -- The induction is on what happens; the host and its listeners do not touch the source.
  have hnext : ∀ {past : List Happening} {e : Emulator} (h : Happening),
      h.before = e → e.machine.random = drawnOn (asked past) e₀.machine.random →
        h.after.machine.random = drawnOn (asked (past ++ [h])) e₀.machine.random := by
    rintro past _ h rfl hpast
    rw [random_after, asked_concat, hpast]
    split
    · rw [drawnOn, drawnOn, Function.iterate_succ_apply']
    · rfl
  induction h with
  | start => rfl
  | @instruction past e _ _ ih => exact hnext (.instruction e) rfl ih
  | @countdown past e _ ticks ih => exact hnext (.countdown e ticks) rfl ih
  | @restart past e e' _ hmachine ih =>
      rw [hmachine]
      exact hnext (.restart e) rfl ih
  | latch _ _ ih => exact ih
  | beside _ hmachine ih =>
      rw [hmachine]
      exact ih

theorem silent_of_asks {e : Emulator} (hasks : e.nextWord / 4096 = 0xC) :
    (silent e).1 = .ok none ∧ (silent e).2.machine.registers.byte (regX e.nextWord) =
      e.machine.random.next.1 &&& lowByte e.nextWord := by
  have hop := (lookup_random_iff e).mpr hasks
  simp only [silent, hop, execute, setRegister_of_isByte (isByte_toNat _), toByte_toNat]
  refine ⟨rfl, ?_⟩
  simp [commit, setRegisters, withRegisters, Registers.advance, Registers.byte, Registers.write]

theorem executeWith_of_asks {e : Emulator} (hasks : e.nextWord / 4096 = 0xC) :
    e.executeWith notify = (.ok (), (silent e).2) := by
  obtain ⟨hquiet, -⟩ := silent_of_asks hasks
  rw [executeWith_eq]
  generalize silent e = reply at hquiet ⊢
  obtain ⟨answer, e'⟩ := reply
  subst hquiet
  rfl

/-- The source of an emulator has given a byte for each word that asked for one, in turn. -/
structure InTurn (value : Nat → UInt8) (hs : List Happening) (e : Emulator) : Prop where
  drawn : e.machine.random.drawn = asked hs
  before : ∀ past h later, hs = past ++ h :: later → h.before.machine.random.drawn = asked past
  stored : ∀ past e' later, hs = past ++ .instruction e' :: later → e'.nextWord / 4096 = 0xC →
    ∃ e'', e'.executeWith notify = (.ok (), e'') ∧
      e''.machine.registers.byte (regX e'.nextWord) = value (asked past) &&& lowByte e'.nextWord

theorem inTurn_of_evolves {e₀ e : Emulator} {value : Nat → UInt8}
    (hsource : e₀.machine.random = .ofSequence value) {hs : List Happening}
    (h : Evolves e₀ hs e) : InTurn value hs e := by
  have hrandom : ∀ {past : List Happening} {e : Emulator}, Evolves e₀ past e →
      e.machine.random = { generator := .sequence value, drawn := asked past } := by
    intro past e hpast
    rw [random_of_evolves hpast, hsource, drawnOn_ofSequence]
  constructor
  case drawn => rw [hrandom h]
  case before =>
    rintro past happening later rfl
    rw [hrandom h.cut]
  case stored =>
    rintro past e' later rfl hasks
    have hnext : e'.machine.random.next.1 = value (asked past) := by
      rw [hrandom (show Evolves e₀ past e' from h.cut)]
      rfl
    refine ⟨_, executeWith_of_asks hasks, ?_⟩
    rw [(silent_of_asks hasks).2, hnext]

/-- What takes no random byte from the source of an emulator. -/
structure Spares (e : Emulator) : Prop where
  load : ∀ program speed, (e.load program speed).2.machine.random = e.machine.random
  reset : e.reset.machine.random = e.machine.random
  fault : ∀ err, (silent e).1 = .error err → (silent e).2.machine.random = e.machine.random
  stopped : e.stopped = true → ∀ calls, (∀ c ∈ calls, Ordinary c) →
    (e.performAll calls).2.machine.random = e.machine.random

theorem spares (e : Emulator) : Spares e := by
  constructor
  case load =>
    intro program speed
    rcases load_cases e program speed with ⟨err, log, -, hload⟩ | ⟨clock, -, hload⟩
    · rw [hload]
    · obtain ⟨log, hloaded⟩ := loaded_eq e program clock
      rw [hload, hloaded]
      rfl
  case reset => rfl
  case fault =>
    intro err herror
    rw [random_silent, if_neg]
    intro hasks
    rw [(silent_of_asks hasks).1] at herror
    cases herror
  case stopped =>
    intro hstop calls hcalls
    obtain ⟨s, hs⟩ := Option.isSome_iff_exists.mp hstop
    obtain ⟨-, hfrozen⟩ := performAll_stopped (stopReason_of_stop hs) hcalls
    rw [hfrozen]

/-- From the construction of an emulator on, loads and resets included, its source gives one byte to
each word that asks for one. Under listeners of any kind this holds of what happens in some order,
and of the history that the calls tell if there are none. -/
theorem bytes_in_turn {config : Config} {value : Nat → UInt8} {e : Emulator}
    (hnew : Emulator.new config (.ofSequence value) = .ok e) (calls : List HostCall) :
    (∃ hs, Evolves e hs (e.performAll calls).2 ∧ InTurn value hs (e.performAll calls).2) ∧
      ((∀ c ∈ calls, Driving c) →
        Evolves e (history e calls) (e.performAll calls).2 ∧
          InTurn value (history e calls) (e.performAll calls).2) ∧
      Spares (e.performAll calls).2 := by
  obtain ⟨clock, he⟩ := new_ok hnew
  have hsource : e.machine.random = .ofSequence value := by rw [he]
  have hrecording : Recording e.listeners := by
    rw [he]
    exact fun _ hr => absurd hr List.not_mem_nil
  refine ⟨?_, ?_, spares _⟩
  · obtain ⟨hs, hevolves⟩ := evolves_of_calls e calls
    exact ⟨hs, hevolves, inTurn_of_evolves hsource hevolves⟩
  · intro hcalls
    have hevolves := evolves_of_recording hrecording hcalls
    exact ⟨hevolves, inTurn_of_evolves hsource hevolves⟩

theorem bytes_in_turn_across_reset : ∃ e,
    Emulator.new {} (.ofSequence fun k => UInt8.ofNat (17 * k + 3)) = .ok e ∧
      let program : List UInt8 := [0xC0, 0x00, 0xC1, 0xFF, 0xC2, 0x0F, 0xFF, 0xFF]
      let calls : List HostCall := [.load program none, .run 9, .step, .reset, .load program none,
        .step, .advance (.ofDecimal false 5 (-1))]
      (∀ c ∈ calls, Driving c) ∧ asked (history e calls) = 6 ∧
        (e.performAll calls).2.machine.registers.v.toList.take 3 = [0, 71, 8] ∧
        InTurn (fun k => UInt8.ofNat (17 * k + 3)) (history e calls) (e.performAll calls).2 := by
  refine ⟨_, rfl, ?_⟩
  intro program calls
  have hcalls : ∀ c ∈ calls, Driving c := by
    simp only [calls, List.forall_mem_cons]
    exact ⟨trivial, trivial, trivial, trivial, trivial, trivial, trivial, nofun⟩
  refine ⟨hcalls, by decide +kernel, by decide +kernel, ?_⟩
  exact ((@bytes_in_turn {} _ _ rfl calls).2.1 hcalls).2

end Chip8.Proofs.RandomStream
