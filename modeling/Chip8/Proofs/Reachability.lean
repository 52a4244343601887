import Chip8.Proofs.Loading
import Chip8.Proofs.TwoRuns

/-!
The emulators that a host can have: constructed, and then driven by calls, with listeners that call
back. A property of the machine that the start, loading, keys, timers, faults and each instruction
keep is kept by every call, however deep its listeners nest, and so holds of every reachable
emulator.
-/

namespace Chip8.Proofs.Reachability

open Chip8.Emulator
open Chip8.Proofs.Loading
open Chip8.Proofs.Stepping
open Chip8.Proofs.TwoRuns

/-- An emulator that a host can have. -/
inductive Reachable : Emulator → Prop
  | new {config : Config} {random : RandomSource} {e : Emulator}
      (h : Emulator.new config random = .ok e) : Reachable e
  | perform {e : Emulator} (h : Reachable e) (c : HostCall) : Reachable (e.perform c).2

theorem reachable_performAll {e : Emulator} (h : Reachable e) (calls : List HostCall) :
    Reachable (e.performAll calls).2 := by
  induction calls generalizing e with
  | nil => exact h
  | cons c rest ih => exact ih (h.perform c)

inductive OwnFault (m : Machine) : Fault → Prop
  | illegal (hop : Opcode.lookup (m.memory.readWord m.registers.pc) = none) :
      OwnFault m (.illegalOpcode m.registers.pc (m.memory.readWord m.registers.pc))
  | stack {op : Opcode} {f : Fault}
      (hop : Opcode.lookup (m.memory.readWord m.registers.pc) = some op)
      (hf : StackFault m op f) : OwnFault m f

/-- A property of machines that nothing breaks which a host can do, nor an instruction. An
instruction is executed only when the machine is not stopped. -/
structure Stable (P : Machine → Prop) : Prop where
  start : ∀ random, P { random }
  load : ∀ random program, P { random, memory := (Memory.initial.loadProgram program).2 }
  keys : ∀ m keypad, P m → P { m with keypad }
  timers : ∀ m delay sound, P m → P { m with delay, sound }
  execute : ∀ m op, m.stop = none →
    Opcode.lookup (m.memory.readWord m.registers.pc) = some op → P m →
    P (m.execute op (m.memory.readWord m.registers.pc)).machine

/-- A stable property that no fault breaks. -/
structure Invariant (P : Machine → Prop) : Prop extends Stable P where
  latch : ∀ m f, P m → P { m with stop := some (.faulted f) }

/-- A stable property that a machine's own faults do not break. A fault that is answered tells `Q`
of the machine, and listeners raise only errors in `own` themselves. -/
structure Contract (P : Machine → Prop) (Q : Fault → Machine → Prop) (own : Error → Prop) : Prop
    extends Stable P where
  fault : ∀ m f, m.stop = none → OwnFault m f → P m → P { m with stop := some (.faulted f) }
  /-- A fault that comes out of a notification is latched once more. -/
  again : ∀ m f, P m → Q f m → P { m with stop := some (.faulted f) }
  latched : ∀ (m : Machine) f, Q f { m with stop := some (.faulted f) }
  listener : ∀ m f, own (.fault f) → P m → Q f m

theorem Invariant.contract {P : Machine → Prop} (hP : Invariant P) :
    Contract P (fun _ _ => True) fun _ => True where
  toStable := hP.toStable
  fault m f _ _ := hP.latch m f
  again m f h _ := hP.latch m f h
  latched _ _ := trivial
  listener _ _ _ _ := trivial

/-- A listener that raises errors of its own only in `own`, whatever it finds. -/
def Raising (own : Error → Prop) (l : Listener) : Prop :=
  ∀ notices m, RaisesOnly own (l.action.toScript l.event notices m)

/-- An emulator related to itself: its machine has the property `P`, and its listeners `L`. -/
structure Keeping (P : Machine → Prop) (L : Listener → Prop) (e₁ e₂ : Emulator) : Prop where
  same : e₁ = e₂
  machine : P e₁.machine
  listeners : AllListeners L e₁.listeners

section

variable {P : Machine → Prop} {Q : Fault → Machine → Prop} {own : Error → Prop}

theorem agree_self {L : Listener → Prop} {α : Type} {r : Reply α} (hmachine : P r.2.machine)
    (hlisteners : AllListeners L r.2.listeners)
    (hfault : ∀ f, r.1 = .error (.fault f) → Q f r.2.machine) :
    Agree (Keeping P L) (fun f e _ => Q f e.machine) r r := by
  obtain ⟨answer | answer, e⟩ := r
  · refine .error _ ⟨rfl, hmachine, hlisteners⟩ ?_
    rintro f rfl
    exact hfault f rfl
  · exact .ok answer ⟨rfl, hmachine, hlisteners⟩

theorem Contract.agree_silent (hP : Contract P Q own) {L : Listener → Prop} {e : Emulator}
    (hstop : e.stopped = false) (hmachine : P e.machine) (hlisteners : AllListeners L e.listeners) :
    Agree (Keeping P L) (fun f e _ => Q f e.machine) (silent e) (silent e) := by
  have hrunning := (stopped_eq_false_iff e).mp hstop
  have hkept : AllListeners L (silent e).2.listeners := by rwa [listeners_silent]
  have houtcome := outcome_silent e
  generalize silent e = reply at houtcome hkept ⊢
  cases houtcome with
  | illegal hop =>
      refine agree_self (hP.fault e.machine _ hrunning (.illegal hop) hmachine) hkept ?_
      rintro f ⟨⟩
      exact hP.latched _ _
  | @stackFault op f hop hf =>
      have hlatched : ((e.traced op e.nextWord).latch f).machine =
          { e.machine with stop := some (.faulted f) } := by
        rw [latch, note, machine_traced]
      refine agree_self ?_ hkept ?_
      · rw [hlatched]
        exact hP.fault e.machine f hrunning (.stack hop hf) hmachine
      · rintro f ⟨⟩
        rw [hlatched]
        exact hP.latched _ _
  | done hop _ _ =>
      exact agree_self (hP.execute e.machine _ hrunning hop hmachine) hkept nofun

theorem Contract.simulation (hP : Contract P Q own) :
    Simulation (Keeping P (Raising own)) (fun f e _ => Q f e.machine) (Raising own) where
  stop h := by rw [h.same]
  clock h := by rw [h.same]
  listeners h := by rw [h.same]
  allListeners h := h.listeners
  silent := by
    rintro e _ ⟨rfl, hmachine, hlisteners⟩ hstop
    exact hP.agree_silent hstop hmachine hlisteners
  latch := by
    rintro e _ f ⟨rfl, hmachine, hlisteners⟩ hf
    exact ⟨⟨rfl, hP.again _ _ hmachine hf, hlisteners⟩, hP.latched _ _⟩
  countDown := by
    rintro e _ ticks ⟨rfl, hmachine, hlisteners⟩
    exact ⟨rfl, rfl, hP.timers _ _ _ hmachine, hlisteners⟩
  retime := by
    rintro e _ clock ⟨rfl, hmachine, hlisteners⟩
    exact ⟨rfl, hmachine, hlisteners⟩
  load := by
    rintro e _ program speed ⟨rfl, hmachine, hlisteners⟩
    have hkept : AllListeners (Raising own) (e.load program speed).2.listeners := by
      rwa [listeners_load]
    rcases load_cases e program speed with ⟨err, log, herr, hload⟩ | ⟨clock, -, hload⟩
    · rw [hload]
      exact .notFault ⟨rfl, hmachine, hlisteners⟩ herr
    · rw [hload] at hkept ⊢
      exact agree_self (hP.load _ _) hkept nofun
  reset := by
    rintro e _ ⟨rfl, hmachine, hlisteners⟩
    exact ⟨rfl, hP.start _, hlisteners⟩
  keys := by
    rintro e _ value f ⟨rfl, hmachine, hlisteners⟩
    refine agree_self (hP.keys _ _ hmachine) hlisteners ?_
    intro fault hfault
    exact absurd rfl (notFault_change hfault fault)
  listen := by
    rintro e _ event l hl ⟨rfl, hmachine, hlisteners⟩
    exact ⟨rfl, hmachine, hlisteners.add event hl⟩
  unlisten := by
    rintro e _ event name ⟨rfl, hmachine, hlisteners⟩
    exact ⟨rfl, hmachine, hlisteners.remove event name⟩
  recording _ _ _ _ := .done
  noted := by
    rintro e _ l _ ⟨rfl, hmachine, hlisteners⟩
    exact ⟨rfl, hmachine, hlisteners⟩
  script := by
    rintro e _ l hl ⟨rfl, hmachine, hlisteners⟩
    refine (hl e.notices e.machine).matched ?_ ?_
    · rintro f hf e₁ _ ⟨rfl, hmachine, -⟩
      exact hP.listener _ _ hf hmachine
    · rintro e₁ _ ⟨rfl, -, -⟩
      rfl

end

theorem Contract.keeping_new {P : Machine → Prop} {Q : Fault → Machine → Prop} {own : Error → Prop}
    (hP : Contract P Q own) {L : Listener → Prop} {config : Config} {random : RandomSource}
    {e : Emulator} (h : Emulator.new config random = .ok e) : Keeping P L e e := by
  obtain ⟨clock, rfl⟩ := new_ok h
  exact ⟨rfl, hP.start random, .empty⟩

/-- An invariant holds in every reachable state. -/
theorem invariant_of_reachable {P : Machine → Prop} (hP : Invariant P) {e : Emulator}
    (h : Reachable e) : P e.machine := by
  have hkept : Keeping P (Raising fun _ => True) e e := by
    induction h with
    | new h => exact hP.contract.keeping_new h
    | perform _ c ih =>
        have hc : Brings (Raising fun _ => True) c := by
          cases c with
          | request r => trivial
          | listen event l => exact fun _ _ => raisesOnly_any _
        exact (agree_perform hP.contract.simulation hc ih).state
  exact hkept.machine

theorem invariant_executeWith {P : Machine → Prop} (hP : Invariant P) {e : Emulator}
    (hstop : e.stopped = false) (h : P e.machine) : P (e.executeWith notify).2.machine := by
  have hlisteners : AllListeners (Raising fun _ => True) e.listeners :=
    ⟨fun _ _ _ _ => raisesOnly_any _, fun _ _ _ _ => raisesOnly_any _⟩
  have hstart : Keeping P (Raising fun _ => True) e e := ⟨rfl, h, hlisteners⟩
  have hsimulation := hP.contract.simulation
  have hkept := agree_executeWith hsimulation (agree_notifyAt hsimulation nestingLimit) hstart hstop
  exact hkept.state.machine

end Chip8.Proofs.Reachability
