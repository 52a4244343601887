import Chip8.Proofs.Decoding
import Chip8.Proofs.Footprint

namespace Chip8.Proofs.DecimalDigits

open Chip8.Emulator
open Chip8.Machine
open Chip8.Proofs.Decoding
open Chip8.Proofs.Footprint
open Chip8.Proofs.MemoryCells
open Chip8.Proofs.Stepping

/-- Hundreds, tens and units that make up an integer. The hundreds take its sign. -/
structure Decimal (n : Int) (digits : Int × Int × Int) : Prop where
  sum : 100 * digits.1 + 10 * digits.2.1 + digits.2.2 = n
  tens : 0 ≤ digits.2.1 ∧ digits.2.1 ≤ 9
  units : 0 ≤ digits.2.2 ∧ digits.2.2 ≤ 9

section

variable (m : Machine) (x : Fin 16)

/-- The address of a digit, the hundreds first. -/
def place (k : Nat) : Int :=
  m.registers.i + k

/-- What a machine is after it wrote the decimal digits of a register. -/
structure Written (m' : Machine) : Prop where
  digits : ∃ hundreds tens units : Nat, (hundreds ≤ 9 ∧ tens ≤ 9 ∧ units ≤ 9) ∧
    100 * hundreds + 10 * tens + units = (m.registers.byte x).toNat ∧
    ∀ k digit, [hundreds, tens, units][k]? = some digit → 0x200 ≤ place m k % 4096 →
      (m'.memory.read (place m k)).toNat = digit
  others : ∀ a : Int, (∀ k < 3, 0x200 ≤ place m k % 4096 → a % 4096 ≠ place m k % 4096) →
    m'.memory.read a = m.memory.read a
  rest : m' = { m with
    memory := m'.memory
    registers := { m.registers with pc := (m.registers.pc + 2) % 65536 } }

end

theorem decimal_digits (n : Int) : Decimal n (Arithmetic.decimal n) := by
  constructor
  case sum =>
    simp only [Arithmetic.decimal]
    omega
  case tens =>
    simp only [Arithmetic.decimal]
    omega
  case units =>
    simp only [Arithmetic.decimal]
    omega

def digitBytes (b : UInt8) : List UInt8 :=
  let (hundreds, tens, units) := Arithmetic.decimal b.toNat
  [toByte hundreds, toByte tens, toByte units]

theorem toNat_digitBytes (b : UInt8) :
    (digitBytes b).map UInt8.toNat = [b.toNat / 100, b.toNat % 100 / 10, b.toNat % 10] := by
  have hlt := b.toNat_lt
  simp only [digitBytes, Arithmetic.decimal, List.map_cons, List.map_nil, toNat_toByte,
    List.cons.injEq, and_true]
  omega

theorem execute_decimal (m : Machine) (word : Int) :
    m.execute .decimal word = m.writeMemory (digitBytes (m.registers.byte (regX word))) :=
  rfl

theorem read_writeMemory (m : Machine) {data : List UInt8} (hlength : data.length ≤ memorySize)
    {k : Nat} (hk : k < memorySize) (hprogram : 0x200 ≤ place m k % 4096) :
    (m.writeMemory data).machine.memory.read (place m k) =
      data[k]?.getD (m.memory.read (place m k)) := by
  have hindex : ((place m k - m.registers.i) % 4096).toNat = k := by
    simp only [place, memorySize] at hk ⊢
    omega
  have hread := read_writeAll m.memory data m.registers.i (place m k) hlength
  rw [if_pos (show (programStart : Int) ≤ place m k % 4096 from hprogram), hindex] at hread
  exact hread

theorem written_decimal (m : Machine) (word : Int) :
    Written m (regX word) (m.execute .decimal word).machine := by
  rw [execute_decimal]
  constructor
  case digits =>
    generalize m.registers.byte (regX word) = b
    have hlt := b.toNat_lt
    refine ⟨b.toNat / 100, b.toNat % 100 / 10, b.toNat % 10, by omega, by omega, ?_⟩
    intro k digit hdigit hprogram
    rw [← toNat_digitBytes, List.getElem?_map, Option.map_eq_some_iff] at hdigit
    obtain ⟨value, hvalue, hdigit⟩ := hdigit
    have hk : k < 3 := (List.getElem?_eq_some_iff.mp hvalue).1
    have hlength : (digitBytes b).length ≤ memorySize := show 3 ≤ 4096 by decide
    rw [read_writeMemory m hlength (Nat.lt_trans hk (by decide)) hprogram, hvalue]
    exact hdigit
  case others =>
    intro a hothers
    refine Classical.byContradiction fun hchanged => ?_
    obtain ⟨hprogram, k, hk, hcell⟩ := cells_writeMemory m _ hchanged
    exact hothers k hk (hcell ▸ hprogram) hcell
  case rest => rfl

theorem executeWith_of_write {e : Emulator} {op : Opcode} {data : List UInt8}
    (hop : Opcode.lookup e.nextWord = some op)
    (hexecute : e.machine.execute op e.nextWord = e.machine.writeMemory data) :
    ∃ trace log, ∀ notify, e.executeWith notify =
      (.ok (), { e with machine := (e.machine.writeMemory data).machine, trace, log }) := by
  obtain ⟨trace, log, htraced⟩ := traced_frame e op e.nextWord
  simp only [executeWith, hop, hexecute, htraced]
  exact ⟨_, _, fun _ => rfl⟩

/-- The digits are written in every state, whoever listens. -/
theorem digits_written {e : Emulator} {x : Fin 16} (hword : e.nextWord = 0xF033 + 256 * x.val) :
    (∀ n, Decimal n (Arithmetic.decimal n)) ∧
      ∃ m trace log, Written e.machine x m ∧
        (∀ notify, e.executeWith notify = (.ok (), { e with machine := m, trace, log })) ∧
        (e.stopped = false → e.step = (.ok none, { e with machine := m, trace, log })) := by
  obtain ⟨hop, hx⟩ : Opcode.lookup e.nextWord = some .decimal ∧ regX e.nextWord = x :=
    lookup_of_register rfl hword
  have hwritten := written_decimal e.machine e.nextWord
  rw [hx] at hwritten
  obtain ⟨trace, log, hexecute⟩ := executeWith_of_write hop (execute_decimal e.machine e.nextWord)
  refine ⟨decimal_digits, _, trace, log, hwritten, hexecute, fun hstop => ?_⟩
  rw [step, stepWith, hstop, hexecute]
  have hrunning := (stopped_eq_false_iff e).mp hstop
  exact Prod.ext (congrArg Except.ok (stopReason_of_running hrunning)) rfl

theorem digits_written_around_end : ∃ e,
    Emulator.new {} (.ofList []) = .ok e ∧
      let writing := (e.performAll [.load [0x63, 0xF9, 0xAF, 0xFE, 0xF3, 0x33] none, .run 2]).2
      writing.nextWord = 0xF033 + 256 * (3 : Fin 16).val ∧ writing.stopped = false ∧
        writing.step.2.machine.memory.readBlock 0xFFE 3 = [2, 4, 0xF0] ∧
        ∃ m trace log, Written writing.machine 3 m ∧
          writing.step = (.ok none, { writing with machine := m, trace, log }) := by
  refine ⟨_, rfl, ?_⟩
  intro writing
  have hword : writing.nextWord = 0xF033 + 256 * (3 : Fin 16).val := by decide +kernel
  have hstop : writing.stopped = false := by decide +kernel
  obtain ⟨-, m, trace, log, hwritten, -, hstep⟩ := digits_written hword
  exact ⟨hword, hstop, by decide +kernel, m, trace, log, hwritten, hstep hstop⟩

end Chip8.Proofs.DecimalDigits
