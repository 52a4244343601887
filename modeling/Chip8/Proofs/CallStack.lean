import Chip8.Proofs.Evolution
import Chip8.Proofs.Faults
import Chip8.Proofs.Notifications
import Chip8.Proofs.StaleSlots
import Mathlib.Data.List.DropRight

namespace Chip8.Proofs.CallStack

open Chip8.Emulator
open Chip8.Proofs.Evolution
open Chip8.Proofs.Execution
open Chip8.Proofs.Faults
open Chip8.Proofs.Footprint
open Chip8.Proofs.History
open Chip8.Proofs.Loading
open Chip8.Proofs.NoteTaking
open Chip8.Proofs.Notifications
open Chip8.Proofs.StaleSlots
open Chip8.Proofs.Stepping
open Chip8.Proofs.TwoRuns

/-- Whether an instruction is executed and succeeds. -/
def executes (op : Opcode) : Happening → Bool
  | .instruction e => decide (Opcode.lookup e.nextWord = some op) && (silent e).1.isOk
  | _ => false

/-- What happened since the machine last started afresh. -/
def recent (past : List Happening) : List Happening :=
  past.rtakeWhile fun h => ¬ IsRestart h

/-- A call adds the address of the instruction after it, and a return takes the newest address. -/
def framed (frames : List Int) (h : Happening) : List Int :=
  if executes .call h then frames ++ [(h.before.machine.registers.pc + 2) % 65536]
  else if executes .ret h then frames.dropLast
  else frames

/-- The return addresses of the calls that have not returned, oldest first. -/
def frames (past : List Happening) : List Int :=
  (recent past).foldl framed []

def count (op : Opcode) (past : List Happening) : Nat :=
  (recent past).countP (executes op)

def live (r : Registers) : List Int :=
  (r.stack.toList.take r.sp.val).map fun slot => (slot.toNat : Int)

theorem length_live (r : Registers) : (live r).length = r.sp.val := by
  have hsp := r.sp.isLt
  rw [live, List.length_map, List.length_take, Vector.length_toList]
  omega

theorem live_push {r r' : Registers} (hfree : r.sp.val < 16) (address : Int)
    (hstack : r'.stack = r.stack.set r.sp.val (UInt16.ofNat (address % 65536).toNat))
    (hsp : r'.sp.val = r.sp.val + 1) : live r' = live r ++ [address % 65536] := by
  have hslot : ((UInt16.ofNat (address % 65536).toNat).toNat : Int) = address % 65536 := by
    rw [UInt16.toNat_ofNat']
    omega
  have hlength : r.sp.val < r.stack.toList.length := by rwa [Vector.length_toList]
  rw [live, hsp, hstack, Vector.toList_set, List.take_add_one,
    List.getElem?_set_self hlength, List.take_set_of_le (Nat.le_refl _), Option.toList_some,
    List.map_append, List.map_singleton, hslot, live]

theorem live_pop {r r' : Registers} {k : Nat} (hk : k < 16) (hsp : r.sp.val = k + 1)
    (hstack : r'.stack = r.stack) (hsp' : r'.sp.val = k) :
    live r = live r' ++ [(r.stack[k].toNat : Int)] := by
  have hlength : k < r.stack.toList.length := by rwa [Vector.length_toList]
  rw [live, live, hsp, hsp', hstack, List.take_add_one, List.getElem?_eq_getElem hlength,
    Vector.getElem_toList, Option.toList_some, List.map_append]
  rfl

theorem live_congr {r r' : Registers} (hstack : r'.stack = r.stack) (hsp : r'.sp = r.sp) :
    live r' = live r := by
  rw [live, live, hstack, hsp]

theorem recent_restart (past : List Happening) (e : Emulator) :
    recent (past ++ [.restart e]) = [] :=
  List.rtakeWhile_concat_neg _ _ _ Bool.false_ne_true

theorem recent_concat (past : List Happening) {h : Happening} (hgoes : ¬ IsRestart h) :
    recent (past ++ [h]) = recent past ++ [h] :=
  List.rtakeWhile_concat_pos _ _ _ (decide_eq_true hgoes)

theorem frames_concat (past : List Happening) {h : Happening} (hgoes : ¬ IsRestart h) :
    frames (past ++ [h]) = framed (frames past) h := by
  rw [frames, recent_concat past hgoes, List.foldl_append]
  rfl

theorem count_concat (op : Opcode) (past : List Happening) {h : Happening}
    (hgoes : ¬ IsRestart h) :
    count op (past ++ [h]) = count op past + if executes op h then 1 else 0 := by
  rw [count, recent_concat past hgoes, List.countP_append, List.countP_singleton]
  rfl

theorem executes_of_error {e e' : Emulator} {err : Error} (h : silent e = (.error err, e'))
    (op : Opcode) : executes op (.instruction e) = false := by
  rw [executes, h]
  exact Bool.and_false _

theorem executes_of_ok {e e' : Emulator} {event : Option Event} (h : silent e = (.ok event, e'))
    {op : Opcode} (hop : Opcode.lookup e.nextWord = some op) (op' : Opcode) :
    executes op' (.instruction e) = decide (op = op') := by
  rw [executes, h, hop]
  simp [Except.isOk, Except.toBool]

/-- What an instruction does to the stack: it pushes the address after a call, pops the address that
a return goes to, or leaves the stack as it is. -/
inductive Turns (e : Emulator) (r : Registers) : Prop
  | call (hcall : executes .call (.instruction e) = true)
      (hret : executes .ret (.instruction e) = false)
      (hlive : live r = live e.machine.registers ++ [(e.machine.registers.pc + 2) % 65536])
  | ret (hcall : executes .call (.instruction e) = false)
      (hret : executes .ret (.instruction e) = true)
      (hlive : live e.machine.registers = live r ++ [r.pc])
  | other (hcall : executes .call (.instruction e) = false)
      (hret : executes .ret (.instruction e) = false)
      (hlive : live r = live e.machine.registers)

theorem turns_silent (e : Emulator) : Turns e (silent e).2.machine.registers := by
  have houtcome := outcome_silent e
  generalize hsilent : silent e = reply at houtcome
  cases houtcome with
  | illegal hop =>
      exact .other (executes_of_error hsilent _) (executes_of_error hsilent _) rfl
  | @stackFault op f hop hf =>
      refine .other (executes_of_error hsilent _) (executes_of_error hsilent _) ?_
      rw [latch, note, machine_traced]
  | @done op event hop hfree hresult =>
      have hexecutes := executes_of_ok hsilent hop
      change Turns e (e.machine.execute op e.nextWord).machine.registers
      by_cases hcall : op = .call
      · subst hcall
        rcases call_cases e.machine (address e.nextWord) with ⟨hfull, -⟩ | ⟨hslot, hcall⟩
        · exact absurd (.overflow hfull) (hfree _)
        · refine .call (hexecutes _) (hexecutes _) ?_
          rw [Machine.execute, hcall]
          exact live_push hslot _ rfl rfl
      · by_cases hret : op = .ret
        · subst hret
          rcases ret_cases e.machine with ⟨hempty, -⟩ | ⟨k, hk, hopen, hret⟩
          · exact absurd (.underflow hempty) (hfree _)
          · refine .ret (hexecutes _) (hexecutes _) ?_
            rw [Machine.execute, hret]
            exact live_pop hk hopen rfl rfl
        · refine .other ?_ ?_ ?_
          · rw [hexecutes, decide_eq_false hcall]
          · rw [hexecutes, decide_eq_false hret]
          · have howned := owned_of_effect (effect_execute e.machine op e.nextWord)
            obtain ⟨hdepth, hstack⟩ := howned.callStack hcall hret
            exact live_congr hstack hdepth

structure Balanced (past : List Happening) (r : Registers) : Prop where
  live : live r = frames past
  depth : r.sp.val + count .ret past = count .call past

theorem balanced_nil {past : List Happening} (hpast : recent past = []) {r : Registers}
    (hr : r = {}) : Balanced past r := by
  subst hr
  constructor
  case live =>
    rw [frames, hpast]
    rfl
  case depth =>
    rw [count, count, hpast]
    rfl

section

variable {past : List Happening} {r r' : Registers} {h : Happening} (hbalanced : Balanced past r)
  (hgoes : ¬ IsRestart h)

include hbalanced hgoes

theorem Balanced.call (hcall : executes .call h = true) (hret : executes .ret h = false)
    (hlive : CallStack.live r' =
      CallStack.live r ++ [(h.before.machine.registers.pc + 2) % 65536]) :
    Balanced (past ++ [h]) r' := by
  have hdepth := hbalanced.depth
  have hlength := congrArg List.length hlive
  rw [List.length_append, length_live, length_live, List.length_singleton] at hlength
  constructor
  case live => rw [frames_concat past hgoes, framed, if_pos hcall, ← hbalanced.live, hlive]
  case depth =>
    rw [count_concat _ past hgoes, count_concat _ past hgoes, hcall, hret, if_pos rfl,
      if_neg Bool.false_ne_true]
    omega

theorem Balanced.ret (hcall : executes .call h = false) (hret : executes .ret h = true)
    {newest : Int} (hlive : CallStack.live r = CallStack.live r' ++ [newest]) :
    Balanced (past ++ [h]) r' := by
  have hdepth := hbalanced.depth
  have hlength := congrArg List.length hlive
  rw [List.length_append, length_live, length_live, List.length_singleton] at hlength
  constructor
  case live =>
    rw [frames_concat past hgoes, framed, hcall, if_neg Bool.false_ne_true, if_pos hret,
      ← hbalanced.live, hlive, List.dropLast_concat]
  case depth =>
    rw [count_concat _ past hgoes, count_concat _ past hgoes, hcall, hret, if_pos rfl,
      if_neg Bool.false_ne_true]
    omega

theorem Balanced.other (hcall : executes .call h = false) (hret : executes .ret h = false)
    (hlive : CallStack.live r' = CallStack.live r) : Balanced (past ++ [h]) r' := by
  have hdepth := hbalanced.depth
  have hlength := congrArg List.length hlive
  rw [length_live, length_live] at hlength
  constructor
  case live =>
    rw [frames_concat past hgoes, framed, hcall, hret, if_neg Bool.false_ne_true,
      if_neg Bool.false_ne_true, ← hbalanced.live, hlive]
  case depth =>
    rw [count_concat _ past hgoes, count_concat _ past hgoes, hcall, hret,
      if_neg Bool.false_ne_true]
    omega

end

theorem balanced_instruction {past : List Happening} {e : Emulator}
    (h : Balanced past e.machine.registers) :
    Balanced (past ++ [.instruction e]) (silent e).2.machine.registers := by
  cases turns_silent e with
  | call hcall hret hlive => exact h.call (not_restart_instruction e) hcall hret hlive
  | ret hcall hret hlive => exact h.ret (not_restart_instruction e) hcall hret hlive
  | other hcall hret hlive => exact h.other (not_restart_instruction e) hcall hret hlive

theorem balanced_of_evolves {e₀ e : Emulator} (hstart : Started e₀) {past : List Happening}
    (h : Evolves e₀ past e) : Balanced past e.machine.registers := by
  -- The induction is on what happens; the host and its listeners do not touch the registers.
  induction h with
  | start => exact balanced_nil rfl (by rw [hstart.machine])
  | instruction _ _ ih => exact balanced_instruction ih
  | countdown _ _ ih => exact ih.other (not_restart_countdown _ _) rfl rfl rfl
  | restart _ hmachine _ =>
      refine balanced_nil (recent_restart _ _) ?_
      rw [hmachine]
  | latch _ _ ih => exact ih
  | beside _ hmachine ih =>
      rw [hmachine]
      exact ih

/-- The next instruction raises a fault, and changes nothing but the stop, the trace and the log. -/
structure Refuses (f : Fault) (e : Emulator) : Prop where
  step : e.step = (.error (.fault f), (silent e).2)
  unchanged : StoppedBy f e (silent e).2

theorem refuses_of_stackFault {e : Emulator} (hstop : e.stopped = false) {op : Opcode} {f : Fault}
    (hop : Opcode.lookup e.nextWord = some op) (hf : StackFault e.machine op f) : Refuses f e := by
  rcases silent_cases hop with ⟨f', hf', hsilent⟩ | ⟨hfree, -⟩
  · obtain rfl := hf.unique hf'
    constructor
    case step => rw [step_eq_of_silent_error hstop hsilent, hsilent]
    case unchanged =>
      rw [hsilent]
      exact stoppedBy_traced_latch e op _ _
  · exact absurd hf (hfree f)

theorem executes_of_free {e : Emulator} {op : Opcode} (hop : Opcode.lookup e.nextWord = some op)
    (hfree : ∀ f, ¬ StackFault e.machine op f) : executes op (.instruction e) = true := by
  rcases silent_cases hop with ⟨f, hf, -⟩ | ⟨-, event, hsilent⟩
  · exact absurd hf (hfree f)
  · rw [executes_of_ok hsilent hop, decide_eq_true rfl]

/-- The call stack of an emulator after all that happened, and what its next instruction does if it
is a call or a return. -/
structure Lifo (past : List Happening) (e : Emulator) : Prop where
  depth : (e.machine.registers.sp.val : Int) = count .call past - count .ret past
  slots : live e.machine.registers = frames past
  call : e.stopped = false → Opcode.lookup e.nextWord = some .call → (frames past).length < 16 →
    executes .call (.instruction e) = true
  overflow : e.stopped = false → Opcode.lookup e.nextWord = some .call →
    (frames past).length = 16 → Refuses (.stackOverflow e.machine.registers.pc) e
  ret : e.stopped = false → Opcode.lookup e.nextWord = some .ret →
    ∀ older newest, frames past = older ++ [newest] →
      executes .ret (.instruction e) = true ∧ (silent e).2.machine.registers.pc = newest
  underflow : e.stopped = false → Opcode.lookup e.nextWord = some .ret → frames past = [] →
    Refuses (.stackUnderflow e.machine.registers.pc) e

theorem lifo_of_balanced {past : List Happening} {e : Emulator}
    (h : Balanced past e.machine.registers) : Lifo past e := by
  have hlength := congrArg List.length h.live
  rw [length_live] at hlength
  constructor
  case depth =>
    have hdepth := h.depth
    omega
  case slots => exact h.live
  case call =>
    intro _ hop hfew
    refine executes_of_free hop fun f hf => ?_
    cases hf with
    | overflow hfull =>
        rw [hfull] at hlength
        exact absurd hlength.symm (Nat.ne_of_lt hfew)
  case overflow =>
    intro hstop hop hfull
    exact refuses_of_stackFault hstop hop (.overflow (Fin.ext (hlength.trans hfull)))
  case ret =>
    intro _ hop older newest hframes
    have hexecutes : executes .ret (.instruction e) = true := by
      refine executes_of_free hop fun f hf => ?_
      cases hf with
      | underflow hempty => simp [hempty, hframes] at hlength
    refine ⟨hexecutes, ?_⟩
    cases turns_silent e with
    | call _ hret | other _ hret =>
        rw [hexecutes] at hret
        cases hret
    | ret _ _ hlive =>
        rw [h.live, hframes] at hlive
        exact (List.singleton_inj.mp (List.append_inj' hlive rfl).2).symm
  case underflow =>
    intro hstop hop hnone
    rw [hnone] at hlength
    exact refuses_of_stackFault hstop hop (.underflow (Fin.ext hlength))

/-- The call stack of an emulator, however it goes on from here. -/
structure KeepsCalls (e₀ : Emulator) : Prop where
  evolves : ∀ calls, ∃ hs, Evolves e₀ hs (e₀.performAll calls).2
  history : Recording e₀.listeners → ∀ calls, (∀ c ∈ calls, Driving c) →
    Evolves e₀ (history e₀ calls) (e₀.performAll calls).2
  now : ∀ past e, Evolves e₀ past e → Lifo past e
  before : ∀ past h later e, Evolves e₀ (past ++ h :: later) e → Lifo past h.before

theorem keepsCalls_of_started {e₀ : Emulator} (hstart : Started e₀) : KeepsCalls e₀ where
  evolves := evolves_of_calls e₀
  history hrecording _ hcalls := evolves_of_recording hrecording hcalls
  now _ _ h := lifo_of_balanced (balanced_of_evolves hstart h)
  before _ _ _ _ h := lifo_of_balanced (balanced_of_evolves hstart h.cut)

/-- From the start of a program on, the call stack holds the calls that have not returned, and the
other slots of the stack never matter. -/
theorem call_discipline :
    (∀ e₀, Started e₀ → KeepsCalls e₀) ∧
      ∀ e₁ e₂, Stale e₁ e₂ → AllListeners Heedless e₁.listeners →
        ∀ calls, (∀ c ∈ calls, Brings Heedless c) →
          (e₁.performAll calls).1 = (e₂.performAll calls).1 ∧
            Stale (e₁.performAll calls).2 (e₂.performAll calls).2 := by
  constructor
  · intro e₀ hstart
    exact keepsCalls_of_started hstart
  · intro e₁ e₂ hstale hlisteners calls hcalls
    exact stale_of_calls hstale hlisteners hcalls

theorem call_discipline_nested : ∃ e,
    Emulator.new {} (.ofList [7]) = .ok e ∧
      let started := (e.load [0x22, 0x06, 0x00, 0xEE, 0x00, 0x00, 0x22, 0x0A, 0x00, 0xEE,
        0x00, 0xEE] none).2
      let returned := (started.performAll [.run 4]).2
      let cleared := { returned with machine := restacked (Vector.replicate 16 0) returned.machine }
      Started started ∧ frames (history started [.run 2]) = [0x202, 0x208] ∧
        frames (history started [.run 4]) = [] ∧ KeepsCalls started ∧
        returned.machine.registers.stack ≠ cleared.machine.registers.stack ∧
        Stale returned cleared ∧ AllListeners Heedless returned.listeners ∧
        (returned.performAll [.run 1, .step]).1 = (cleared.performAll [.run 1, .step]).1 ∧
        Stale (returned.performAll [.run 1, .step]).2 (cleared.performAll [.run 1, .step]).2 := by
  refine ⟨_, rfl, ?_⟩
  intro started returned cleared
  have hstart : Started started :=
    started_of_load (congrArg Prod.fst (load_of_lax rfl _))
  have hstale : Stale returned cleared := by
    refine .mk (.mk _ ?_)
    have hempty : returned.machine.registers.sp.val = 0 := by decide +kernel
    intro k _ hlt
    rw [hempty] at hlt
    cases hlt
  have hlisteners : AllListeners Heedless returned.listeners := by
    have hknown : returned.listeners.known.isEmpty = true := by decide +kernel
    have hregistered : returned.listeners.registered.isEmpty = true := by decide +kernel
    constructor
    · intro l hl
      rw [List.isEmpty_iff.mp hknown] at hl
      exact absurd hl List.not_mem_nil
    · intro r hr
      rw [List.isEmpty_iff.mp hregistered] at hr
      exact absurd hr List.not_mem_nil
  have hcalls : ∀ c ∈ [HostCall.run 1, .step], Brings Heedless c := by
    simp only [List.forall_mem_cons]
    exact ⟨trivial, trivial, nofun⟩
  exact ⟨hstart, by decide +kernel, by decide +kernel, call_discipline.1 started hstart,
    by decide +kernel, hstale, hlisteners,
    call_discipline.2 returned cleared hstale hlisteners _ hcalls⟩

end Chip8.Proofs.CallStack
