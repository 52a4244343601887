import Chip8.Proofs.Stepping
import Chip8.Proofs.WriteProtection

/-!
The bound of the program counter. Past the end of memory an address selects the cells of the font
and then zeros, and no instruction has the word zero; so execution gets little further than the
alias of the font, and neither the program counter nor a return address comes near sixteen bits.
-/

namespace Chip8.Proofs.ProgramCounter

open Chip8.Emulator
open Chip8.Machine
open Chip8.Proofs.Execution
open Chip8.Proofs.MemoryCells
open Chip8.Proofs.Reachability
open Chip8.Proofs.Stepping
open Chip8.Proofs.WriteProtection

/-- The highest address of the program counter: a jump with the largest offset. -/
def highestCounter : Nat :=
  0xFF + 0xFFF

/-- The highest return address: that of a call in the last byte of the alias of the font. -/
def highestReturn : Nat :=
  0x104F + 2

/-- The program counter and the slots of the stack are within their bounds. -/
structure BoundedRegisters (r : Registers) : Prop where
  counter : 0 ≤ r.pc ∧ r.pc ≤ highestCounter
  stack : ∀ k : Fin 16, r.stack[k].toNat ≤ highestReturn

/-- The bounds of the registers, and the cells that keep them. -/
structure Bounded (m : Machine) : Prop where
  memory : Protected m
  registers : BoundedRegisters m.registers

theorem read_alias {m : Machine} (h : Protected m) {a : Int} (hlow : 0x1000 ≤ a)
    (hhigh : a < 0x1200) : m.memory.read a = font.getD (a - 0x1000).toNat 0 := by
  have hcell : a % 4096 = ((a - 0x1000).toNat : Int) % 4096 := by omega
  rw [read_congr m.memory hcell]
  exact h _ (by simp only [programStart]; omega)

theorem readWord_past_font {m : Machine} (h : Protected m) {a : Int} (hlow : 0x1050 ≤ a)
    (hhigh : a ≤ highestCounter) : m.memory.readWord a = 0 := by
  simp only [highestCounter] at hhigh
  have hzero : ∀ b : Int, 0x1050 ≤ b → b < 0x1200 → m.memory.read b = 0 := by
    intro b hb hb'
    have hpast : font.length ≤ (b - 0x1000).toNat := by
      rw [show font.length = 0x50 from rfl]
      omega
    rw [read_alias h (by omega) hb', List.getD_eq_getElem?_getD, List.getElem?_eq_none hpast,
      Option.getD_none]
  rw [Memory.readWord, hzero a hlow (by omega), hzero (a + 1) (by omega) (by omega)]
  rfl

theorem lookup_zero : Opcode.lookup 0 = none := by
  decide

theorem Bounded.counter_of_lookup {m : Machine} (h : Bounded m) {op : Opcode}
    (hop : Opcode.lookup (m.memory.readWord m.registers.pc) = some op) :
    m.registers.pc ≤ 0x104F := by
  rcases Int.lt_or_le 0x104F m.registers.pc with hpast | hpc
  · rw [readWord_past_font h.memory hpast h.registers.counter.2] at hop
    exact absurd (hop.symm.trans lookup_zero) nofun
  · exact hpc

theorem pc_advance {r : Registers} {bytes : Int} (hlow : 0 ≤ r.pc + bytes)
    (hhigh : r.pc + bytes < 65536) : (r.advance bytes).pc = r.pc + bytes :=
  Int.emod_eq_of_lt hlow hhigh

section

variable {r r' : Registers} (h : BoundedRegisters r) (hstack : r'.stack = r.stack)

include h hstack

theorem BoundedRegisters.moved (hlow : 0 ≤ r'.pc) (hhigh : r'.pc ≤ highestCounter) :
    BoundedRegisters r' where
  counter := ⟨hlow, hhigh⟩
  stack k := by
    rw [hstack]
    exact h.stack k

theorem BoundedRegisters.advance (hpc : r'.pc = r.pc) (hlimit : r.pc ≤ 0x104F) (skip : Bool) :
    BoundedRegisters (r'.advance (if skip then 4 else 2)) := by
  have hlow := h.counter.1
  have hbytes : (if skip then 4 else 2 : Int) = 2 ∨ (if skip then 4 else 2 : Int) = 4 := by
    cases skip <;> decide
  have hnext : (r'.advance (if skip then 4 else 2)).pc = r'.pc + if skip then 4 else 2 :=
    pc_advance (by omega) (by omega)
  refine h.moved hstack ?_ ?_
  · omega
  · simp only [highestCounter]
    omega

end

theorem BoundedRegisters.call {r : Registers} (h : BoundedRegisters r) (hlimit : r.pc ≤ 0x104F)
    (hfree : r.sp.val < 16) {target : Nat} (htarget : target < 4096) (sp : Fin 17) :
    BoundedRegisters { r with
      stack := r.stack.set r.sp.val (UInt16.ofNat ((r.pc + 2) % 65536).toNat)
      sp
      pc := target } where
  counter := by
    simp only [highestCounter]
    omega
  stack k := by
    have hlow := h.counter.1
    have hslot := h.stack k
    simp only [highestReturn, Fin.getElem_fin, Vector.getElem_set] at hslot ⊢
    split
    · rw [UInt16.toNat_ofNat']
      omega
    · exact hslot

theorem BoundedRegisters.ret {r : Registers} (h : BoundedRegisters r) {k : Nat} (hk : k < 16)
    (sp : Fin 17) : BoundedRegisters { r with sp, pc := r.stack[k].toNat } := by
  have hslot := h.stack ⟨k, hk⟩
  simp only [highestReturn, Fin.getElem_fin] at hslot
  refine h.moved rfl ?_ ?_
  · simp only
    omega
  · simp only [highestCounter]
    omega

theorem BoundedRegisters.execute {m : Machine} (h : BoundedRegisters m.registers)
    (hlimit : m.registers.pc ≤ 0x104F) (op : Opcode) (word : Int) :
    BoundedRegisters (m.execute op word).machine.registers := by
  have htarget := address_lt word
  have heffect := effect_execute m op word
  generalize m.execute op word = x at heffect
  cases heffect with
  | skip hop taken => exact h.advance rfl rfl hlimit taken
  | assign hop v | random hop v | draw hop screen v | index hop i hrange | clear hop
    | setDelay hop | setSound hop | write hop data =>
      exact h.advance (by rfl) (by rfl) hlimit false
  | wait hop => exact h
  | jump hop =>
      have hmoved : BoundedRegisters { m.registers with pc := address word } :=
        h.moved rfl (by simp only; omega) (by simp only [highestCounter]; omega)
      rw [jump]
      split
      · exact hmoved
      · exact hmoved
  | jumpOffset hop =>
      have hbyte := isByte_read m.registers Registers.offset
      simp only [IsByte] at hbyte
      exact h.moved rfl (by simp only; omega) (by simp only [highestCounter]; omega)
  | call hop =>
      rcases call_cases m (address word) with ⟨-, hfault⟩ | ⟨hfree, hcall⟩
      · rw [hfault]
        exact h
      · rw [hcall]
        exact h.call hlimit hfree htarget _
  | ret hop =>
      rcases ret_cases m with ⟨-, hfault⟩ | ⟨k, hk, -, hret⟩
      · rw [hfault]
        exact h
      · rw [hret]
        exact h.ret hk _

theorem boundedRegisters_initial : BoundedRegisters {} where
  counter := by decide
  stack := by decide

/-- The bounds hold together: the counter bounds the return addresses, they bound the counter, and
the cells that no program can write end execution before either gets further. -/
theorem bounded_invariant : Invariant Bounded where
  start random := ⟨protected_invariant.start random, boundedRegisters_initial⟩
  load random program := ⟨protected_invariant.load random program, boundedRegisters_initial⟩
  keys _ _ h := ⟨h.memory, h.registers⟩
  timers _ _ _ h := ⟨h.memory, h.registers⟩
  latch _ _ h := ⟨h.memory, h.registers⟩
  execute _ op _ hop h :=
    ⟨h.memory.execute op _, h.registers.execute (h.counter_of_lookup hop) op _⟩

/-- The program counter and the stack of an emulator are bounded, below the point where sixteen bits
would wrap around, and past the font there is nothing to execute. -/
structure BoundedCounter (e : Emulator) : Prop where
  counter : 0 ≤ e.machine.registers.pc ∧ e.machine.registers.pc ≤ 0x10FE
  stack : ∀ k : Fin 16, e.machine.registers.stack[k].toNat ≤ 0x1051
  /-- The next instruction is not wrapped, whatever else an instruction does to the registers. -/
  next : ∀ (r : Registers) (skip : Bool), r.pc = e.machine.registers.pc →
    (r.advance (if skip then 4 else 2)).pc = r.pc + if skip then 4 else 2
  jumpOffset : ∀ word, (e.machine.execute .jumpOffset word).machine.registers.pc =
    e.machine.registers.read Registers.offset + address word
  push : ∀ r, e.machine.registers.push (e.machine.registers.pc + 2) = .ok r →
    ∃ h : e.machine.registers.sp.val < 16,
      (r.stack[e.machine.registers.sp.val].toNat : Int) = e.machine.registers.pc + 2
  fontAlias : 0x1000 ≤ e.machine.registers.pc → e.machine.registers.pc ≤ 0x104F →
    e.nextWord = (font.getD (e.machine.registers.pc - 0x1000).toNat 0).toNat * 256 +
      (font.getD (e.machine.registers.pc + 1 - 0x1000).toNat 0).toNat
  freezes : 0x1050 ≤ e.machine.registers.pc →
    e.nextWord = 0 ∧ Opcode.lookup e.nextWord = none ∧
      (e.stopped = false → ∃ f, f = .illegalOpcode e.machine.registers.pc 0 ∧
        e.step = (.error (.fault f), e.latch f) ∧
        (e.latch f).step = (.ok (some .illegal), e.latch f))

theorem push_stack {r r' : Registers} {a : Int} (ha : 0 ≤ a ∧ a < 65536) (h : r.push a = .ok r') :
    ∃ hfree : r.sp.val < 16, (r'.stack[r.sp.val].toNat : Int) = a := by
  rw [Registers.push] at h
  split at h
  · rename_i hfree
    cases h
    refine ⟨hfree, ?_⟩
    simp only [Vector.getElem_set_self, UInt16.toNat_ofNat']
    omega
  · cases h

theorem Bounded.boundedCounter {e : Emulator} (h : Bounded e.machine) : BoundedCounter e where
  counter := h.registers.counter
  stack := h.registers.stack
  next r skip hpc := by
    have hcounter := h.registers.counter
    simp only [highestCounter] at hcounter
    cases skip with
    | false => exact pc_advance (by simp; omega) (by simp; omega)
    | true => exact pc_advance (by simp; omega) (by simp; omega)
  jumpOffset word := by
    have hbyte := isByte_read e.machine.registers Registers.offset
    have htarget := address_lt word
    simp only [IsByte] at hbyte
    exact Int.emod_eq_of_lt (by omega) (by omega)
  push r hpush := by
    have hcounter := h.registers.counter
    simp only [highestCounter] at hcounter
    exact push_stack (by omega) hpush
  fontAlias hlow hhigh := by
    rw [nextWord, Memory.readWord, read_alias h.memory hlow (by omega),
      read_alias h.memory (by omega) (by omega)]
  freezes hpast := by
    have hword : e.nextWord = 0 := readWord_past_font h.memory hpast h.registers.counter.2
    have hop : Opcode.lookup e.nextWord = none := by
      rw [hword]
      exact lookup_zero
    refine ⟨hword, hop, fun hstop => ⟨_, rfl, ?_, step_latch e _⟩⟩
    rw [step_eq_of_lookup_none hstop hop, hword]

/-- In every reachable state the program counter and the stack are bounded. -/
theorem boundedCounter_of_reachable {e : Emulator} (h : Reachable e) : BoundedCounter e :=
  (invariant_of_reachable bounded_invariant h).boundedCounter

theorem boundedCounter_after_highest_jump : ∃ e,
    Emulator.new {} (.ofList [7]) = .ok e ∧
      BoundedCounter
        (e.performAll [.load [0x60, 0xFF, 0xBF, 0xFF] none, .step, .step]).2 :=
  ⟨_, rfl, boundedCounter_of_reachable (reachable_performAll (@Reachable.new {} _ _ rfl) _)⟩

end Chip8.Proofs.ProgramCounter
