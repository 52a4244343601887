import Chip8.Proofs.CallStack
import Chip8.Proofs.Decoding

namespace Chip8.Proofs.ControlFlow

open Chip8.Emulator
open Chip8.Machine
open Chip8.Proofs.CallStack
open Chip8.Proofs.Decoding
open Chip8.Proofs.Execution
open Chip8.Proofs.MemoryCells
open Chip8.Proofs.NoteTaking
open Chip8.Proofs.Stepping

section

variable (m : Machine) (word : Int)

/-- Whether the key is down that the low four bits of a register name. -/
def namesDown (x : Fin 16) : Bool :=
  m.keypad.pressed.any fun key => key.val = (m.registers.byte x).toNat % 16

def skips : Opcode → Bool
  | .skipIfByte => m.registers.read (regX word) = Field.nn.value word
  | .skipUnlessByte => m.registers.read (regX word) ≠ Field.nn.value word
  | .skipIfSame => m.registers.read (regX word) = m.registers.read (regY word)
  | .skipUnlessSame => m.registers.read (regX word) ≠ m.registers.read (regY word)
  | .skipIfKey => namesDown m (regX word)
  | .skipUnlessKey => !namesDown m (regX word)
  | _ => false

/-- The program counter after an instruction that does not fail. -/
def successor : Opcode → Int
  | .jump | .call => address word
  | .ret => (live m.registers).getLastD 0
  | .jumpOffset => m.registers.read Registers.offset + address word
  | .waitKey =>
    if m.keypad.pressed = [] then m.registers.pc else (m.registers.pc + 2) % 65536
  | op => (m.registers.pc + if skips m word op then 4 else 2) % 65536

end

theorem byte_eq_lowByte_iff (r : Registers) (x : Fin 16) (word : Int) :
    r.byte x = lowByte word ↔ r.read x = Field.nn.value word := by
  have hbyte : (lowByte word).toNat = Field.nn.value word := by
    simp only [lowByte, Field.value, UInt8.toNat_ofNat']
    omega
  rw [Registers.read, Int.natCast_inj, ← hbyte, UInt8.toNat_inj]

theorem byte_eq_iff (r : Registers) (x y : Fin 16) : r.byte x = r.byte y ↔ r.read x = r.read y := by
  rw [Registers.read, Registers.read, Int.natCast_inj, UInt8.toNat_inj]

theorem pressed_eq_nil_iff (k : Keypad) : k.pressed = [] ↔ k.first? = none := by
  rw [Keypad.pressed, Keypad.first?, List.filter_eq_nil_iff, List.find?_eq_none]

/-- The instructions that go on to the next one, whatever they find. -/
def sequential : Opcode → Bool
  | .ret | .jump | .call | .skipIfByte | .skipUnlessByte | .skipIfSame | .skipUnlessSame
  | .jumpOffset | .skipIfKey | .skipUnlessKey | .waitKey => false
  | _ => true

theorem counter_of_sequential {m : Machine} {word : Int} {op : Opcode}
    (hop : sequential op = true) :
    (m.execute op word).machine.registers.pc = (m.registers.pc + 2) % 65536 := by
  have heffect := effect_execute m op word
  generalize m.execute op word = x at heffect
  cases heffect with
  | assign | random | index | clear | draw | setDelay | setSound | write => rfl
  | skip hskip =>
      simp only [List.mem_cons, List.not_mem_nil, or_false] at hskip
      rcases hskip with rfl | rfl | rfl | rfl | rfl | rfl <;> cases hop
  | wait hother | jump hother | jumpOffset hother | call hother | ret hother =>
      subst hother
      cases hop

theorem successor_of_sequential (m : Machine) (word : Int) {op : Opcode}
    (hop : sequential op = true) : successor m word op = (m.registers.pc + 2) % 65536 := by
  cases op <;> first | rfl | cases hop

theorem counter_next (m : Machine) (skip : Bool) :
    (m.next skip).registers.pc = (m.registers.pc + if skip then 4 else 2) % 65536 :=
  rfl

theorem isDown_eq_namesDown (m : Machine) (x : Fin 16)
    (h : (m.registers.read x % 16).toNat < 16) :
    m.keypad.isDown ⟨(m.registers.read x % 16).toNat, h⟩ = namesDown m x := by
  have hvalue : (m.registers.read x % 16).toNat = (m.registers.byte x).toNat % 16 := by
    rw [Registers.read]
    omega
  rw [Bool.eq_iff_iff, namesDown, List.any_eq_true]
  constructor
  · intro hdown
    exact ⟨_, List.mem_filter.mpr ⟨List.mem_finRange _, hdown⟩, decide_eq_true hvalue⟩
  · rintro ⟨key, hpressed, hkey⟩
    have hsame : key = ⟨_, h⟩ := Fin.ext ((of_decide_eq_true hkey).trans hvalue.symm)
    rw [← hsame]
    exact (List.mem_filter.mp hpressed).2

theorem counter_execute {m : Machine} {op : Opcode} (word : Int)
    (hfree : ∀ f, ¬ StackFault m op f) :
    (m.execute op word).machine.registers.pc = successor m word op := by
  cases op with
  | skipIfByte =>
      simp only [execute, counter_next, successor, skips, decide_eq_true_eq, byte_eq_lowByte_iff]
  | skipUnlessByte =>
      simp only [execute, counter_next, successor, skips, decide_eq_true_eq, byte_eq_lowByte_iff,
        ne_eq]
  | skipIfSame =>
      simp only [execute, counter_next, successor, skips, decide_eq_true_eq, byte_eq_iff]
  | skipUnlessSame =>
      simp only [execute, counter_next, successor, skips, decide_eq_true_eq, byte_eq_iff, ne_eq]
  | skipIfKey =>
      rw [execute, skipByKey_eq, isDown_eq_namesDown, beq_true]
      rfl
  | skipUnlessKey =>
      rw [execute, skipByKey_eq, isDown_eq_namesDown, beq_false]
      rfl
  | waitKey =>
      simp only [execute, successor, pressed_eq_nil_iff]
      cases m.keypad.first? with
      | none => rfl
      | some key =>
          dsimp only
          rw [setRegister_of_isByte (by simp only [IsByte]; omega)]
          rfl
  | jump =>
      simp only [execute, jump]
      split <;> rfl
  | jumpOffset =>
      have hbyte := isByte_read m.registers Registers.offset
      have haddress := address_lt word
      simp only [IsByte] at hbyte
      simp only [execute, successor]
      omega
  | call =>
      rcases call_cases m (address word) with ⟨hfull, -⟩ | ⟨_, hcall⟩
      · exact absurd (.overflow hfull) (hfree _)
      · simp only [execute, hcall]
        rfl
  | ret =>
      rcases ret_cases m with ⟨hempty, -⟩ | ⟨k, hk, hopen, hret⟩
      · exact absurd (.underflow hempty) (hfree _)
      · -- The slot that is read is the last of the live ones, so the newest return address.
        have hlive : live m.registers = live { m.registers with sp := ⟨k, by omega⟩ } ++ _ :=
          live_pop hk hopen rfl rfl
        simp only [execute, hret, successor]
        rw [hlive, List.getLastD_concat]
  | _ => rw [counter_of_sequential rfl, successor_of_sequential m word rfl]

theorem halts_execute_iff {m : Machine} (hrunning : m.stop = none) (op : Opcode) (word : Int) :
    (m.execute op word).machine.stop = some .halted ↔
      op = .jump ∧ (address word : Int) = m.registers.pc := by
  constructor
  · intro hhalted
    rcases execute_stop hrunning op word with hnone | ⟨hjump, hself, -⟩
    · rw [hnone] at hhalted
      cases hhalted
    · exact ⟨hjump, hself⟩
  · rintro ⟨rfl, hself⟩
    rw [execute, jump, if_pos hself.symm]

theorem stopReason_eq_halt_iff (e : Emulator) :
    e.stopReason = some .halt ↔ e.machine.stop = some .halted := by
  rw [stopReason]
  rcases e.machine.stop with _ | _ | f
  · simp
  · simp [Stop.reason]
  · cases f <;> simp [Stop.reason, Fault.reason]

theorem jump_iff {word : Nat} (hword : word < 65536) (pc : Int) :
    Opcode.lookup word = some .jump ∧ (address word : Int) = pc ↔
      ∃ a : Nat, a < 0x1000 ∧ word = 0x1000 + a ∧ pc = a := by
  have hkey : Opcode.jump.key = 4096 := rfl
  rw [lookup_eq_some_iff_family rfl, family_of_lt hword, hkey]
  simp only [address, Field.value]
  constructor
  · rintro ⟨hfamily, rfl⟩
    exact ⟨word % 4096, by omega, by omega, by omega⟩
  · rintro ⟨a, ha, rfl, rfl⟩
    omega

/-- How an instruction of some emulator leaves it: the next one runs, unless it was a jump to
itself. -/
structure Flows (e : Emulator) (op : Opcode) (e' : Emulator) : Prop where
  counter : e'.machine.registers.pc = successor e.machine e.nextWord op
  halts : e'.stopReason = some .halt ↔
    ∃ a : Nat, a < 0x1000 ∧ e.nextWord = 0x1000 + a ∧ e.machine.registers.pc = a
  runs : e'.stopReason = none ∨ e'.stopReason = some .halt

theorem flows_of_executed {e e' : Emulator} {op : Opcode} (hrunning : e.machine.stop = none)
    (hop : Opcode.lookup e.nextWord = some op) (hfree : ∀ f, ¬ StackFault e.machine op f)
    (hmachine : e'.machine = (e.machine.execute op e.nextWord).machine) : Flows e op e' := by
  have hhalts := halts_execute_iff hrunning op e.nextWord
  constructor
  case counter => rw [hmachine, counter_execute _ hfree]
  case halts =>
    have hword : e.nextWord < 65536 := readWord_lt e.machine.memory e.machine.registers.pc
    rw [← jump_iff hword, stopReason_eq_halt_iff, hmachine, hhalts, hop, Option.some_inj]
  case runs =>
    rcases execute_stop hrunning op e.nextWord with hnone | ⟨-, -, hhalted⟩
    · exact .inl (stopReason_of_running (by rw [hmachine, hnone]))
    · exact .inr (stopReason_of_stop (by rw [hmachine, hhalted]))

/-- The control flow of every word that an instruction executes. A word that spells a pattern leads
to the instruction of the pattern, and any other word to the one that its family falls back to. -/
theorem step_flows {e : Emulator} {op : Opcode} (hstop : e.stopped = false)
    (hrecording : Recording e.listeners) (hop : Opcode.lookup e.nextWord = some op)
    (hfree : ∀ f, ¬ StackFault e.machine op f) :
    ∃ e', e.step = (.ok e'.stopReason, e') ∧ Flows e op e' ∧
      ∀ op', Matches op'.pattern e.nextWord → op' = op := by
  rcases silent_cases hop with ⟨f, hf, -⟩ | ⟨-, event, hsilent⟩
  · exact absurd hf (hfree f)
  · obtain ⟨e', hstep, hmachine, -⟩ := step_of_silent hstop hrecording hsilent
    refine ⟨e', hstep, ?_, fun op' hspells => ?_⟩
    · exact flows_of_executed ((stopped_eq_false_iff e).mp hstop) hop hfree hmachine
    · have hop' := lookup_of_spells ((spells_iff_matches op' e.nextWord).mpr hspells)
      exact Option.some.inj (hop'.symm.trans hop)

theorem step_flows_of_coarse_word : ∃ e,
    Emulator.new {} (.ofList []) = .ok e ∧
      let waiting := (e.performAll [.load [0xF1, 0x1A] none]).2
      waiting.nextWord = 0xF11A ∧ waiting.stopped = false ∧ Recording waiting.listeners ∧
        Opcode.lookup waiting.nextWord = some .waitKey ∧
        (∀ f, ¬ StackFault waiting.machine .waitKey f) ∧
        successor waiting.machine waiting.nextWord .waitKey = 0x200 ∧
        ∃ e', waiting.step = (.ok e'.stopReason, e') ∧ Flows waiting .waitKey e' ∧
          ∀ op' : Opcode, Matches op'.pattern waiting.nextWord → op' = .waitKey := by
  refine ⟨_, rfl, ?_⟩
  intro waiting
  have hstop : waiting.stopped = false := by decide +kernel
  have hrecording : Recording waiting.listeners := recording_of_isEmpty (by decide +kernel)
  have hop : Opcode.lookup waiting.nextWord = some .waitKey := by decide +kernel
  have hfree : ∀ f, ¬ StackFault waiting.machine .waitKey f := by rintro f ⟨⟩
  exact ⟨by decide +kernel, hstop, hrecording, hop, hfree, by decide +kernel,
    step_flows hstop hrecording hop hfree⟩

/-- The control flow told by the words alone that spell a pattern: one that spells none is taken for
an instruction that goes on to the next one. -/
def FlowsAsSpelt (e e' : Emulator) : Prop :=
  (∀ op, Matches op.pattern e.nextWord →
    e'.machine.registers.pc = successor e.machine e.nextWord op) ∧
  ((∀ op : Opcode, ¬ Matches op.pattern e.nextWord) →
    e'.machine.registers.pc = (e.machine.registers.pc + 2) % 65536)

/-- A word that spells no pattern skips the next instruction, since two registers are equal. -/
theorem not_flowsAsSpelt_coarse_skip : ∃ e,
    Emulator.new {} (.ofList []) = .ok e ∧
      let skipping := (e.performAll [.load [0x51, 0x21] none]).2
      skipping.stopReason = none ∧ skipping.listeners.registered.isEmpty = true ∧
        skipping.nextWord = 0x5121 ∧ skipping.step.1 = .ok none ∧
        ¬ FlowsAsSpelt skipping skipping.step.2 := by
  refine ⟨_, rfl, ?_⟩
  intro skipping
  have hword : skipping.nextWord = 0x5121 := by decide +kernel
  have hspells : ∀ op : Opcode, ¬ Matches op.pattern skipping.nextWord := by
    intro op
    rw [← spells_iff_matches, hword]
    cases op <;> decide
  refine ⟨by decide +kernel, by decide +kernel, hword, by decide +kernel, ?_⟩
  rintro ⟨-, hnext⟩
  have hcounter := hnext hspells
  revert hcounter
  decide +kernel

end Chip8.Proofs.ControlFlow
