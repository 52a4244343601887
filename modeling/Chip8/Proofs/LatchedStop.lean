import Chip8.Proofs.Decoding
import Chip8.Proofs.Reachability

namespace Chip8.Proofs.LatchedStop

open Chip8.Emulator
open Chip8.Machine
open Chip8.Proofs.Decoding
open Chip8.Proofs.Execution
open Chip8.Proofs.Reachability
open Chip8.Proofs.Stepping
open Chip8.Proofs.TwoRuns

/-- What the registers and the memory of a machine say of its stop. -/
inductive Explained (m : Machine) : Stop → Prop
  | halted (hop : Opcode.lookup (m.memory.readWord m.registers.pc) = some .jump)
      (hself : (address (m.memory.readWord m.registers.pc) : Int) = m.registers.pc) :
      Explained m .halted
  | faulted {f : Fault} (hf : OwnFault m f) : Explained m (.faulted f)

theorem ownFault_congr {m m' : Machine} (hmemory : m'.memory = m.memory)
    (hregisters : m'.registers = m.registers) {f : Fault} (h : OwnFault m f) : OwnFault m' f := by
  cases h with
  | illegal hop =>
      rw [← hmemory, ← hregisters] at hop ⊢
      exact .illegal hop
  | stack hop hf =>
      rw [← hmemory, ← hregisters] at hop
      refine .stack hop ?_
      cases hf with
      | overflow hfull =>
          rw [← hregisters] at hfull ⊢
          exact .overflow hfull
      | underflow hempty =>
          rw [← hregisters] at hempty ⊢
          exact .underflow hempty

theorem Explained.congr {m m' : Machine} (hmemory : m'.memory = m.memory)
    (hregisters : m'.registers = m.registers) {s : Stop} (h : Explained m s) : Explained m' s := by
  cases h with
  | halted hop hself =>
      rw [← hmemory, ← hregisters] at hop hself
      exact .halted hop hself
  | faulted hf => exact .faulted (ownFault_congr hmemory hregisters hf)

/-- The stop of a machine, if it has one, is explained. -/
def Truthful (m : Machine) : Prop :=
  ∀ s, m.stop = some s → Explained m s

theorem Truthful.execute {m : Machine} (hrunning : m.stop = none) {op : Opcode}
    (hop : Opcode.lookup (m.memory.readWord m.registers.pc) = some op) :
    Truthful (m.execute op (m.memory.readWord m.registers.pc)).machine := by
  intro s hs
  rcases execute_stop hrunning op (m.memory.readWord m.registers.pc) with hnone |
    ⟨rfl, hself, hhalted⟩
  · rw [hnone] at hs
    cases hs
  · rw [hhalted] at hs ⊢
    cases hs
    exact .halted hop hself

/-- A fault that is answered is the latched one, so latching it again changes nothing. -/
theorem truthful_contract :
    Contract Truthful (fun f m => m.stop = some (.faulted f)) NotFault where
  start _ := nofun
  load _ _ := nofun
  keys _ _ h s hs := (h s hs).congr (by rfl) (by rfl)
  timers _ _ _ h s hs := (h s hs).congr (by rfl) (by rfl)
  execute _ _ hrunning hop _ := Truthful.execute hrunning hop
  fault m f _ hf _ := by
    rintro s ⟨⟩
    exact .faulted (ownFault_congr (by rfl) (by rfl) hf)
  again m f h hlatched := by
    rintro s ⟨⟩
    exact (h _ hlatched).congr (by rfl) (by rfl)
  latched _ _ := rfl
  listener _ f hown _ := absurd rfl (hown f)

theorem raisesOnly_once {own : Error → Prop} (r : Request) : RaisesOnly own (.once r) := by
  refine .ask r fun answer m hpass => ?_
  cases answer with
  | ok answer => exact .done
  | error err => exact absurd ⟨err, rfl, rfl⟩ hpass

theorem raising_of_action {own : Error → Prop} {l : Listener}
    (hfail : ∀ err, l.action = .fail err → own err)
    (hscript : ∀ behave, l.action ≠ .script behave) :
    Raising own l := by
  intro notices m
  cases haction : l.action with
  | record => exact .done
  | fail err => exact .fail (hfail err haction)
  | key value => exact raisesOnly_once _
  | remove name => exact raisesOnly_once _
  | add name => exact raisesOnly_once _
  | step => exact raisesOnly_once _
  | load program => exact raisesOnly_once _
  | script behave => exact absurd haction (hscript behave)

/-- What a stop reason and a fault say of an emulator. -/
structure TruthfulStop (e : Emulator) : Prop where
  running : e.stopReason = none → e.fault? = none
  halt : e.stopReason = some .halt →
    e.fault? = none ∧ Opcode.jump.Spells e.nextWord ∧
      (address e.nextWord : Int) = e.machine.registers.pc
  illegal : e.stopReason = some .illegal →
    e.fault? = some (.illegalOpcode e.machine.registers.pc e.nextWord) ∧
      Opcode.lookup e.nextWord = none
  stack : e.stopReason = some .stack →
    (e.fault? = some (.stackOverflow e.machine.registers.pc) ∧ e.machine.registers.sp = 16 ∧
      Opcode.lookup e.nextWord = some .call) ∨
    (e.fault? = some (.stackUnderflow e.machine.registers.pc) ∧ e.machine.registers.sp = 0 ∧
      Opcode.lookup e.nextWord = some .ret)
  /-- Running out of time is not latched. -/
  latched : e.stopReason ≠ some .timeout

theorem Truthful.truthfulStop {e : Emulator} (h : Truthful e.machine) : TruthfulStop e := by
  unfold Truthful at h
  cases hstop : e.machine.stop with
  | none =>
      have hreason := stopReason_of_running hstop
      have hfault := fault?_of_running hstop
      constructor <;> simp [hreason, hfault]
  | some s =>
      have hreason := stopReason_of_stop hstop
      have hfault := fault?_of_stop hstop
      cases h s hstop with
      | halted hop hself =>
          refine ⟨?_, fun _ => ⟨hfault, spells_of_lookup hop rfl, hself⟩, ?_, ?_, ?_⟩ <;>
            simp [hreason, Stop.reason]
      | faulted hf =>
          cases hf with
          | illegal hop =>
              refine ⟨?_, ?_, fun _ => ⟨hfault, hop⟩, ?_, ?_⟩ <;>
                simp [hreason, Stop.reason, Fault.reason]
          | stack hop hf =>
              cases hf with
              | overflow hfull =>
                  refine ⟨?_, ?_, ?_, fun _ => .inl ⟨hfault, hfull, hop⟩, ?_⟩ <;>
                    simp [hreason, Stop.reason, Fault.reason]
              | underflow hempty =>
                  refine ⟨?_, ?_, ?_, fun _ => .inr ⟨hfault, hempty, hop⟩, ?_⟩ <;>
                    simp [hreason, Stop.reason, Fault.reason]

/-- After any calls of a host whose listeners raise no faults of their own, the stop is truthful. -/
theorem truthfulStop_of_calls {config : Config} {random : RandomSource} {e : Emulator}
    (h : Emulator.new config random = .ok e) {calls : List HostCall}
    (hcalls : ∀ c ∈ calls, Brings (Raising NotFault) c) : TruthfulStop (e.performAll calls).2 := by
  have hkept :=
    (agree_performAll truthful_contract.simulation hcalls (truthful_contract.keeping_new h)).2
  exact Truthful.truthfulStop hkept.machine

theorem truthfulStop_after_nested_fault : ∃ e,
    Emulator.new {} (.ofList [7]) = .ok e ∧
      let calls : List HostCall :=
        [.listen .displayUpdated { name := "stepper", event := .displayUpdated, action := .step },
          .listen .soundOn
            { name := "thrower", event := .soundOn, action := .fail .listenerFailed },
          .load [0x60, 0x01, 0xF0, 0x18, 0xD0, 0x01, 0xFF, 0xFF] none, .step, .run 1, .run 9]
      (∀ c ∈ calls, Brings (Raising NotFault) c) ∧
        (e.performAll calls).2.stopReason = some .illegal ∧
        TruthfulStop (e.performAll calls).2 := by
  refine ⟨_, rfl, ?_⟩
  intro calls
  have hcalls : ∀ c ∈ calls, Brings (Raising NotFault) c := by
    simp only [calls, List.forall_mem_cons]
    refine ⟨?_, ?_, trivial, trivial, trivial, trivial, nofun⟩
    · exact raising_of_action nofun nofun
    · refine raising_of_action ?_ nofun
      rintro err ⟨⟩
      exact nofun
  exact ⟨hcalls, by decide +kernel, @truthfulStop_of_calls {} _ _ rfl _ hcalls⟩

end Chip8.Proofs.LatchedStop
