import Chip8.Proofs.MemoryCells
import Chip8.Proofs.NoteTaking

namespace Chip8.Proofs.Footprint

open Chip8.Emulator
open Chip8.Machine
open Chip8.Proofs.Execution
open Chip8.Proofs.MemoryCells
open Chip8.Proofs.NoteTaking
open Chip8.Proofs.Stepping

/-- How many cells an instruction may write, from the address register on. -/
def transferred (word : Int) : Opcode → Nat
  | .decimal => 3
  | .store => (regX word).val + 1
  | _ => 0

/-- The byte registers that an instruction may assign on a machine. -/
def Assigns (m : Machine) (word : Int) (x : Fin 16) : Opcode → Prop
  | .setByte | .addByte | .copy | .or | .and | .xor | .random | .readDelay => x = regX word
  | .waitKey => (∃ key, m.keypad.isDown key = true) ∧ x = regX word
  | .add | .subtract | .shiftRight | .subtractFrom | .shiftLeft =>
    x = regX word ∨ x = Registers.flag
  | .draw => x = Registers.flag
  | .load => x ≤ regX word
  | _ => False

/-- Each part that changed belongs to the instruction. -/
structure Owned (m : Machine) (op : Opcode) (m' : Machine) : Prop where
  memory : m'.memory ≠ m.memory → op ∈ [.decimal, .store]
  screen : m'.screen ≠ m.screen → op ∈ [.clear, .draw]
  depth : m'.registers.sp ≠ m.registers.sp → op ∈ [.call, .ret]
  stack : m'.registers.stack ≠ m.registers.stack → op ∈ [.call, .ret]
  index : m'.registers.i ≠ m.registers.i → op ∈ [.setIndex, .addIndex, .glyph]
  delay : m'.delay ≠ m.delay → op = .setDelay
  sound : m'.sound ≠ m.sound → op = .setSound
  random : m'.random ≠ m.random → op = .random
  keypad : m'.keypad = m.keypad

/-- What an instruction may do to a machine: cells and byte registers change only where it writes
them, and it draws one random byte or none. -/
structure Frame (m : Machine) (word : Int) (op : Opcode) (m' : Machine) : Prop
    extends Owned m op m' where
  cells : ∀ a : Int, m'.memory.read a ≠ m.memory.read a →
    programStart ≤ a % 4096 ∧
      ∃ k : Nat, k < transferred word op ∧ a % 4096 = (m.registers.i + k) % 4096
  bytes : ∀ x, m'.registers.byte x ≠ m.registers.byte x → Assigns m word x op
  draws : op = .random →
    m'.random = m.random.next.2 ∧ m'.random.drawn = m.random.drawn + 1

theorem Owned.refl (m : Machine) (op : Opcode) : Owned m op m := by
  constructor
  case keypad => rfl
  all_goals exact absurd rfl

theorem Owned.callStack {m m' : Machine} {op : Opcode} (h : Owned m op m') (hcall : op ≠ .call)
    (hret : op ≠ .ret) :
    m'.registers.sp = m.registers.sp ∧ m'.registers.stack = m.registers.stack := by
  have hother : op ∉ [Opcode.call, .ret] := by simp [hcall, hret]
  exact ⟨Decidable.not_imp_comm.mp h.depth hother, Decidable.not_imp_comm.mp h.stack hother⟩

theorem owned_of_effect {m : Machine} {word : Int} {op : Opcode} {x : Execution}
    (h : Effect m word op x) : Owned m op x.machine := by
  have hsame := Owned.refl m op
  cases h with
  | skip | assign | wait | jumpOffset => exact { hsame with }
  | random hop => exact { hsame with random := fun _ => hop }
  | index hop => exact { hsame with index := fun _ => hop }
  | clear hop => exact { hsame with screen := fun _ => by rw [hop]; decide }
  | draw hop => exact { hsame with screen := fun _ => by rw [hop]; decide }
  | setDelay hop => exact { hsame with delay := fun _ => hop }
  | setSound hop => exact { hsame with sound := fun _ => hop }
  | write hop => exact { hsame with memory := fun _ => hop }
  | jump =>
      rw [jump]
      split
      · exact { hsame with }
      · exact { hsame with }
  | call hop =>
      have howner : op ∈ [Opcode.call, .ret] := by rw [hop]; decide
      rcases call_cases m (address word) with ⟨-, hfault⟩ | ⟨_, hcall⟩
      · rwa [hfault]
      · rw [hcall]
        exact { hsame with depth := fun _ => howner, stack := fun _ => howner }
  | ret hop =>
      have howner : op ∈ [Opcode.call, .ret] := by rw [hop]; decide
      rcases ret_cases m with ⟨-, hfault⟩ | ⟨_, _, -, hret⟩
      · rwa [hfault]
      · rw [hret]
        exact { hsame with depth := fun _ => howner, stack := fun _ => howner }

theorem byte_setRegister (m : Machine) {x k : Fin 16} (h : k ≠ x) (value : Int) :
    (m.setRegister x value).machine.registers.byte k = m.registers.byte k := by
  rw [setRegister, Registers.store]
  by_cases hvalue : IsByte value
  · rw [if_pos hvalue]
    exact byte_write_of_ne m.registers h _
  · rw [if_neg hvalue]

theorem byte_setWithFlag (m : Machine) {x k : Fin 16} (h : k ≠ x) (hflag : k ≠ Registers.flag)
    (flag : Int) (result : Registers → Int) :
    (m.setWithFlag x flag result).machine.registers.byte k = m.registers.byte k := by
  rw [setWithFlag, Registers.store]
  by_cases hvalue : IsByte flag
  · rw [if_pos hvalue]
    dsimp only
    rw [byte_setRegister _ h]
    exact byte_write_of_ne m.registers hflag _
  · rw [if_neg hvalue]

theorem byte_fill_of_lt (r : Registers) {last k : Fin 16} (h : ¬ k ≤ last)
    (value : Fin 16 → UInt8) :
    (r.fill last value).byte k = r.byte k := by
  simp only [Registers.fill, Registers.byte, Fin.getElem_fin, Vector.getElem_ofFn, Fin.eta,
    if_neg h]

theorem byte_execute (m : Machine) (op : Opcode) (word : Int) {k : Fin 16}
    (h : ¬ Assigns m word k op) :
    (m.execute op word).machine.registers.byte k = m.registers.byte k := by
  cases op with
  | setByte | addByte | copy | or | and | xor | readDelay =>
      simp only [execute]
      exact byte_setRegister m h _
  | random =>
      simp only [execute]
      exact byte_setRegister { m with random := m.random.next.2 } h _
  | add | subtract | shiftRight | subtractFrom | shiftLeft =>
      simp only [execute]
      exact byte_setWithFlag m (fun hx => h (.inl hx)) (fun hflag => h (.inr hflag)) _ _
  | load => exact byte_fill_of_lt m.registers h _
  | draw =>
      obtain ⟨screen, flag, hdraw⟩ := draw_eq m (regX word) (regY word) (lowNibble word)
      simp only [execute, hdraw]
      exact byte_write_of_ne m.registers h flag
  | waitKey =>
      simp only [execute]
      split
      · rename_i key hkey
        exact byte_setRegister m (fun hx => h ⟨⟨key, List.find?_some hkey⟩, hx⟩) _
      · rfl
  | skipIfKey | skipUnlessKey =>
      simp only [execute, skipByKey_eq]
      rfl
  | jump =>
      simp only [execute, jump]
      split <;> rfl
  | call =>
      simp only [execute]
      rcases call_cases m (address word) with ⟨-, hfault⟩ | ⟨_, hcall⟩
      · rw [hfault]
      · rw [hcall]
        rfl
  | ret =>
      simp only [execute]
      rcases ret_cases m with ⟨-, hfault⟩ | ⟨_, _, -, hret⟩
      · rw [hfault]
      · rw [hret]
        rfl
  | _ => rfl

theorem read_writeAll_of_apart (m : Memory) (data : List UInt8) (address : Int) {a : Int}
    (h : ∀ k : Nat, k < data.length → a % 4096 ≠ (address + k) % 4096) :
    (m.writeAll address data).1.read a = m.read a := by
  induction data generalizing m address with
  | nil => rfl
  | cons b rest ih =>
      have hfirst := h 0 (Nat.succ_pos _)
      simp only [Memory.writeAll]
      rw [ih, read_write, if_neg (by omega)]
      intro k hk
      have hnext := h (k + 1) (Nat.succ_lt_succ hk)
      omega

theorem cells_writeMemory (m : Machine) (data : List UInt8) {a : Int}
    (h : (m.writeMemory data).machine.memory.read a ≠ m.memory.read a) :
    programStart ≤ a % 4096 ∧
      ∃ k : Nat, k < data.length ∧ a % 4096 = (m.registers.i + k) % 4096 := by
  constructor
  · refine Decidable.byContradiction fun hbelow => h ?_
    exact read_writeAll_of_lt m.memory data m.registers.i (by omega)
  · refine Classical.byContradiction fun hnone => h ?_
    apply read_writeAll_of_apart
    intro k hk hcell
    exact hnone ⟨k, hk, hcell⟩

theorem cells_execute (m : Machine) (op : Opcode) (word : Int) {a : Int}
    (h : (m.execute op word).machine.memory.read a ≠ m.memory.read a) :
    programStart ≤ a % 4096 ∧
      ∃ k : Nat, k < transferred word op ∧ a % 4096 = (m.registers.i + k) % 4096 := by
  have howner := (owned_of_effect (effect_execute m op word)).memory fun hsame => h (by rw [hsame])
  simp only [List.mem_cons, List.not_mem_nil, or_false] at howner
  rcases howner with rfl | rfl
  · exact cells_writeMemory m _ h
  · obtain ⟨hprogram, k, hk, hcell⟩ := cells_writeMemory m _ h
    rw [List.length_take, Vector.length_toList] at hk
    exact ⟨hprogram, k, Nat.lt_of_lt_of_le hk (Nat.min_le_left _ _), hcell⟩

theorem drawn_next (r : RandomSource) : r.next.2.drawn = r.drawn + 1 := by
  rw [RandomSource.next]
  split <;> rfl

theorem frame_execute (m : Machine) (op : Opcode) (word : Int) :
    Frame m word op (m.execute op word).machine where
  toOwned := owned_of_effect (effect_execute m op word)
  cells _ h := cells_execute m op word h
  bytes x h := Classical.byContradiction fun hassigns => h (byte_execute m op word hassigns)
  draws := by
    rintro rfl
    simp only [execute]
    rw [setRegister_of_isByte (isByte_toNat _)]
    exact ⟨rfl, drawn_next m.random⟩

theorem Frame.refl_of_stackFault {m : Machine} {op : Opcode} {f : Fault} (hf : StackFault m op f)
    (word : Int) : Frame m word op m where
  toOwned := .refl m op
  cells _ h := absurd rfl h
  bytes _ h := absurd rfl h
  draws := by
    rintro rfl
    cases hf

/-- What a step may change. A word without an instruction only stops the machine, and so does an
instruction only by a fault or by a jump to itself. -/
structure StepFrame (e : Emulator) (reply : Reply (Option StopReason)) : Prop where
  frame : ∀ op, Opcode.lookup e.nextWord = some op →
    Frame e.machine e.nextWord op reply.2.machine
  illegal : Opcode.lookup e.nextWord = none →
    reply.2.machine = { e.machine with stop := reply.2.machine.stop }
  stop : reply.2.machine.stop ≠ none →
    (∃ f, reply.1 = .error (.fault f) ∧ reply.2.machine.stop = some (.faulted f)) ∨
    Opcode.lookup e.nextWord = some .jump ∧ (address e.nextWord : Int) = e.machine.registers.pc ∧
      reply.2.machine.stop = some .halted
  clock : reply.2.clock = e.clock
  listeners : reply.2.listeners = e.listeners

theorem stepFrame_of_fault {e e' : Emulator} {f : Fault} (hran : Ran e e')
    (hmachine : e'.machine = { e.machine with stop := some (.faulted f) })
    (hframe : ∀ op, Opcode.lookup e.nextWord = some op →
      Frame e.machine e.nextWord op e.machine) :
    StepFrame e (.error (.fault f), e') where
  frame op hop := by
    rw [hmachine]
    exact { hframe op hop with }
  illegal _ := by
    dsimp only
    rw [hmachine]
  stop _ := .inl ⟨f, rfl, by dsimp only; rw [hmachine]⟩
  clock := hran.clock
  listeners := hran.listeners

theorem stepFrame_of_done {e e' : Emulator} {op : Opcode} {reason : Option StopReason}
    (hrunning : e.machine.stop = none) (hop : Opcode.lookup e.nextWord = some op) (hran : Ran e e')
    (hmachine : e'.machine = (e.machine.execute op e.nextWord).machine) :
    StepFrame e (.ok reason, e') := by
  constructor
  case clock => exact hran.clock
  case listeners => exact hran.listeners
  case frame =>
    intro op' hop'
    cases Option.some.inj (hop.symm.trans hop')
    dsimp only
    rw [hmachine]
    exact frame_execute e.machine op e.nextWord
  case illegal =>
    intro hnone
    rw [hop] at hnone
    cases hnone
  case stop =>
    intro hends
    dsimp only at hends ⊢
    rw [hmachine] at hends ⊢
    rcases execute_stop hrunning op e.nextWord with hnone | ⟨hjump, hself, hhalted⟩
    · exact absurd hnone hends
    · rw [hjump] at hop
      exact .inr ⟨hop, hself, by rw [hhalted]⟩

/-- The frame of a step, whatever the state and the word at the program counter. -/
theorem stepFrame_of_recording {e : Emulator} (hstop : e.stopped = false)
    (hrecording : Recording e.listeners) : StepFrame e e.step := by
  have hran := ran_silent e
  have houtcome := outcome_silent e
  generalize hsilent : silent e = reply at hran houtcome
  cases houtcome with
  | illegal hop =>
      rw [step_eq_of_silent_error hstop hsilent]
      refine stepFrame_of_fault hran rfl fun op h => ?_
      rw [hop] at h
      cases h
  | @stackFault op f hop hf =>
      rw [step_eq_of_silent_error hstop hsilent]
      refine stepFrame_of_fault hran ?_ fun op' hop' => ?_
      · rw [latch, note, machine_traced]
      · cases Option.some.inj (hop.symm.trans hop')
        exact .refl_of_stackFault hf _
  | @done op event hop _ _ =>
      obtain ⟨e', hexecute, hmachine, hran⟩ := executeWith_of_silent hrecording hsilent
      have hstep : e.step = (.ok e'.stopReason, e') := by
        rw [step, stepWith, hstop, hexecute]
        rfl
      rw [hstep]
      exact stepFrame_of_done ((stopped_eq_false_iff e).mp hstop) hop hran hmachine

theorem stepFrame_of_wrapping_store : ∃ e,
    Emulator.new {} (.ofList [7]) = .ok e ∧
      let storing := (e.performAll
        [.load [0x60, 0x03, 0x61, 0x04, 0x62, 0x05, 0xAF, 0xFE, 0xF2, 0x55] none, .run 4]).2
      storing.stopped = false ∧ Recording storing.listeners ∧
        storing.step.2.machine.memory.readBlock 0xFFE 3 = [3, 4, 0xF0] ∧
        StepFrame storing storing.step := by
  refine ⟨_, rfl, ?_⟩
  intro storing
  have hstop : storing.stopped = false := by decide +kernel
  have hrecording : Recording storing.listeners := by
    have hnone : storing.listeners.registered.isEmpty = true := by decide +kernel
    intro r hr
    rw [List.isEmpty_iff.mp hnone] at hr
    exact absurd hr List.not_mem_nil
  exact ⟨hstop, hrecording, by decide +kernel, stepFrame_of_recording hstop hrecording⟩

end Chip8.Proofs.Footprint
