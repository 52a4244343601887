import Chip8.Emulator.Call
import Chip8.Proofs.Decoding
import Chip8.Proofs.Stepping
import Mathlib.Logic.Function.Basic

namespace Chip8.Proofs.FlagOrder

open Chip8.Emulator
open Chip8.Machine
open Chip8.Proofs.Decoding
open Chip8.Proofs.Execution
open Chip8.Proofs.Stepping

/-- The operations on two registers that store a flag. -/
inductive Operation
  | add
  | subtract
  | shiftRight
  | subtractFrom
  | shiftLeft
  deriving DecidableEq

namespace Operation

def opcode : Operation → Opcode
  | add => .add
  | subtract => .subtract
  | shiftRight => .shiftRight
  | subtractFrom => .subtractFrom
  | shiftLeft => .shiftLeft

def digit : Operation → Nat
  | add => 0x4
  | subtract => 0x5
  | shiftRight => 0x6
  | subtractFrom => 0x7
  | shiftLeft => 0xE

def flag : Operation → Int → Int → Int
  | add, a, b => if a + b > 255 then 1 else 0
  | subtract, a, b => if a > b then 1 else 0
  | shiftRight, a, _ => a % 2
  | subtractFrom, a, b => if b > a then 1 else 0
  | shiftLeft, a, _ => a % 2

def result : Operation → Int → Int → Int
  | add, a, b => (a + b) % 256
  | subtract, a, b => (a - b) % 256
  | shiftRight, _, b => b / 2
  | subtractFrom, a, b => (b - a) % 256
  | shiftLeft, _, b => 2 * b % 256

/-- The registers after the flag was stored, and then the result of the registers with the flag in
them. -/
def flagFirst (op : Operation) (v : Fin 16 → Int) (x y : Fin 16) : Fin 16 → Int :=
  let v' := Function.update v Registers.flag (op.flag (v x) (v y))
  Function.update v' x (op.result (v' x) (v' y))

/-- The registers after the flag was stored, and then the result of the registers before it. -/
def readOnce (op : Operation) (v : Fin 16 → Int) (x y : Fin 16) : Fin 16 → Int :=
  let v' := Function.update v Registers.flag (op.flag (v x) (v y))
  Function.update v' x (op.result (v x) (v y))

def registers : Operation → (Fin 16 → Int) → Fin 16 → Fin 16 → Fin 16 → Int
  | add => readOnce add
  | op => flagFirst op

end Operation

theorem read_write (r : Registers) (x : Fin 16) (b : UInt8) :
    (r.write x b).read = Function.update r.read x b.toNat := by
  funext k
  by_cases h : k = x
  · subst h
    rw [Function.update_self, Registers.read, byte_write_self]
  · rw [Function.update_of_ne h, Registers.read, byte_write_of_ne r h, Registers.read]

theorem toNat_toByte_of_isByte {n : Int} (h : IsByte n) : ((toByte n).toNat : Int) = n := by
  rw [toNat_toByte]
  simp only [IsByte] at h
  omega

theorem isByte_flag (op : Operation) (a b : Int) : IsByte (op.flag a b) := by
  cases op with
  | add | subtract | subtractFrom => exact isByte_ite _
  | shiftRight | shiftLeft =>
      simp only [Operation.flag, IsByte]
      omega

theorem isByte_result (op : Operation) {b : Int} (hb : IsByte b) (a : Int) :
    IsByte (op.result a b) := by
  cases op with
  | add | subtract | subtractFrom | shiftLeft => exact isByte_emod _
  | shiftRight =>
      simp only [Operation.result, IsByte] at hb ⊢
      omega

theorem setWithFlag_reads (m : Machine) (x : Fin 16) {flag : Int} {result : Registers → Int}
    (hflag : IsByte flag) (hresult : ∀ r, IsByte (result r)) :
    ∃ v, m.setWithFlag x flag result = m.setRegisters { m.registers with v } ∧
      ({ m.registers with v } : Registers).read =
        Function.update (Function.update m.registers.read Registers.flag flag) x
          (result (m.registers.write Registers.flag (toByte flag))) := by
  refine ⟨_, setWithFlag_of_isByte hflag hresult m x, ?_⟩
  change (flagged m.registers x flag result).read = _
  rw [flagged, read_write, read_write, toNat_toByte_of_isByte hflag,
    toNat_toByte_of_isByte (hresult _)]

theorem setWithFlag_flagFirst (m : Machine) (op : Operation) (x y : Fin 16)
    {result : Registers → Int}
    (hresult : ∀ r : Registers, result r = op.result (r.read x) (r.read y)) :
    ∃ v, m.setWithFlag x (op.flag (m.registers.read x) (m.registers.read y)) result =
        m.setRegisters { m.registers with v } ∧
      ({ m.registers with v } : Registers).read = op.flagFirst m.registers.read x y := by
  have hflag := isByte_flag op (m.registers.read x) (m.registers.read y)
  have hbytes : ∀ r, IsByte (result r) := by
    intro r
    rw [hresult]
    exact isByte_result op (isByte_read r y) _
  obtain ⟨v, hset, hread⟩ := setWithFlag_reads m x hflag hbytes
  refine ⟨v, hset, ?_⟩
  rw [hread, hresult, read_write, toNat_toByte_of_isByte hflag, Operation.flagFirst]

theorem execute_operation (m : Machine) (op : Operation) (word : Int) :
    ∃ v, m.execute op.opcode word = m.setRegisters { m.registers with v } ∧
      ({ m.registers with v } : Registers).read =
        op.registers m.registers.read (regX word) (regY word) := by
  cases op with
  | add =>
      simp only [Operation.opcode, execute, Arithmetic.add]
      apply setWithFlag_reads m (regX word)
      · exact isByte_flag .add _ _
      · exact fun _ => isByte_emod _
  | subtract =>
      simp only [Operation.opcode, execute]
      exact setWithFlag_flagFirst m .subtract _ _ fun _ => rfl
  | subtractFrom =>
      simp only [Operation.opcode, execute]
      exact setWithFlag_flagFirst m .subtractFrom _ _ fun _ => rfl
  | shiftRight =>
      simp only [Operation.opcode, execute]
      apply setWithFlag_flagFirst m .shiftRight (regX word) (regY word)
      intro r
      have hbyte := isByte_read r (regY word)
      simp only [IsByte] at hbyte
      simp only [Arithmetic.shiftRight, Operation.result]
      omega
  | shiftLeft =>
      simp only [Operation.opcode, execute]
      apply setWithFlag_flagFirst m .shiftLeft (regX word) (regY word)
      intro r
      rw [Arithmetic.shiftLeft, Operation.result, Int.mul_comm]

/-- Nothing differs but the byte registers and the program counter, which is on the next
instruction; and the trace and the log have a line more if the instructions are traced. -/
def OnlyBytes (e : Emulator) (op : Opcode) (e' : Emulator) : Prop :=
  e' = { e.traced op e.nextWord with
    machine := { e.machine with
      registers := { e.machine.registers with
        v := e'.machine.registers.v
        pc := (e.machine.registers.pc + 2) % 65536 } } }

theorem key_of_operation (op : Operation) :
    op.opcode.layout = .xy ∧ op.opcode.key = 0x8000 + op.digit := by
  cases op <;> decide

theorem step_operation {e : Emulator} {x y : Fin 16} {op : Operation} (hstop : e.stopped = false)
    (hword : e.nextWord = 0x8000 + 256 * x.val + 16 * y.val + op.digit) :
    ∃ e', e.step = (.ok none, e') ∧ OnlyBytes e op.opcode e' ∧
      e'.machine.registers.read = op.registers e.machine.registers.read x y := by
  obtain ⟨hlayout, hkey⟩ := key_of_operation op
  have hspelt : e.nextWord = op.opcode.key + 256 * x.val + 16 * y.val := by omega
  obtain ⟨hop, hx, hy⟩ := lookup_of_registers hlayout hspelt
  obtain ⟨v, hexecute, hread⟩ := execute_operation e.machine op e.nextWord
  rw [hx, hy] at hread
  have hstep := step_of_quiet hstop hop hexecute ((stopped_eq_false_iff e).mp hstop)
  exact ⟨_, hstep, rfl, hread⟩

theorem registers_of_ne_add {op : Operation} (h : op ≠ .add) : op.registers = op.flagFirst := by
  cases op with
  | add => exact absurd rfl h
  | _ => rfl

section

variable {v : Fin 16 → Int} {x y : Fin 16}

theorem flagFirst_apart (op : Operation) (hx : x ≠ Registers.flag) (hy : y ≠ Registers.flag) :
    op.flagFirst v x y x = op.result (v x) (v y) ∧
      op.flagFirst v x y Registers.flag = op.flag (v x) (v y) := by
  simp only [Operation.flagFirst, Function.update_self, Function.update_of_ne hx,
    Function.update_of_ne hy, Function.update_of_ne hx.symm, and_self]

theorem flag_of_equal {op : Operation} (hop : op = .subtract ∨ op = .subtractFrom) (a : Int) :
    op.flag a a = 0 := by
  rcases hop with rfl | rfl
  · simp [Operation.flag]
  · simp [Operation.flag]

/-- The two orders of a sum agree if neither register is the flag register, if that has the value of
the carry already, and in one case by chance. -/
theorem readOnce_eq_flagFirst_iff (hbytes : ∀ k, IsByte (v k)) :
    Operation.add.readOnce v x y = Operation.add.flagFirst v x y ↔
      (x ≠ Registers.flag ∧ y ≠ Registers.flag) ∨
        v Registers.flag = Operation.add.flag (v x) (v y) ∨
        (x = Registers.flag ∧ y = Registers.flag ∧ v Registers.flag = 129) := by
  have hbyte := hbytes Registers.flag
  have hx := hbytes x
  have hy := hbytes y
  simp only [Operation.readOnce, Operation.flagFirst]
  -- Both orders store in the same register last, so only what they store there can differ.
  rw [(Function.update_injective _ x).eq_iff]
  simp only [IsByte, Operation.result, Operation.flag] at *
  by_cases hxf : x = Registers.flag
  · subst hxf
    by_cases hyf : y = Registers.flag
    · subst hyf
      simp only [Function.update_self, ne_eq, not_true_eq_false, false_and, true_and, false_or]
      split <;> omega
    · simp only [Function.update_self, Function.update_of_ne hyf, ne_eq, not_true_eq_false, hyf,
        false_and, and_false, false_or, or_false]
      split <;> omega
  · by_cases hyf : y = Registers.flag
    · subst hyf
      simp only [Function.update_self, Function.update_of_ne hxf, ne_eq, not_true_eq_false, hxf,
        false_and, and_false, false_or, or_false]
      split <;> omega
    · simp [hxf, hyf]

end

/-- The flag of a difference or a shift is there before the operands of its result are read. -/
theorem flag_before_result {e : Emulator} {x y : Fin 16} {op : Operation} (hop : op ≠ .add)
    (hstop : e.stopped = false)
    (hword : e.nextWord = 0x8000 + 256 * x.val + 16 * y.val + op.digit) :
    ∃ e', e.step = (.ok none, e') ∧ OnlyBytes e op.opcode e' ∧
      let v := e.machine.registers.read
      let v' := e'.machine.registers.read
      v' = op.flagFirst v x y ∧
        (x ≠ Registers.flag → y ≠ Registers.flag →
          v' x = op.result (v x) (v y) ∧ v' Registers.flag = op.flag (v x) (v y) ∧
            (op = .subtract ∨ op = .subtractFrom → v x = v y → v' Registers.flag = 0)) := by
  obtain ⟨e', hstep, honly, hread⟩ := step_operation hstop hword
  rw [registers_of_ne_add hop] at hread
  refine ⟨e', hstep, honly, hread, ?_⟩
  intro hx hy
  obtain ⟨hresult, hflag⟩ := flagFirst_apart (v := e.machine.registers.read) op hx hy
  rw [hread]
  refine ⟨hresult, hflag, ?_⟩
  intro hsub heq
  rw [hflag, heq, flag_of_equal hsub]

theorem flag_before_own_shift : ∃ e,
    Emulator.new {} (.ofList []) = .ok e ∧
      let shifting := (e.performAll [.load [0x6F, 0x81, 0x8F, 0xFE] none, .run 1]).2
      Operation.shiftLeft ≠ .add ∧ shifting.stopped = false ∧
        shifting.nextWord = 0x8000 + 256 * 15 + 16 * 15 + Operation.shiftLeft.digit ∧
        ∃ e', shifting.step = (.ok none, e') ∧ OnlyBytes shifting .shiftLeft e' ∧
          e'.machine.registers.read =
            Operation.shiftLeft.flagFirst shifting.machine.registers.read 15 15 ∧
          e'.machine.registers.read Registers.flag = 2 := by
  refine ⟨_, rfl, ?_⟩
  intro shifting
  obtain ⟨hstop, hword, htwo⟩ : shifting.stopped = false ∧
      shifting.nextWord = 0x8000 + 256 * 15 + 16 * 15 + Operation.shiftLeft.digit ∧
      Operation.shiftLeft.flagFirst shifting.machine.registers.read 15 15 15 = 2 := by
    decide +kernel
  have hop : Operation.shiftLeft ≠ .add := by decide
  obtain ⟨e', hstep, honly, hread, -⟩ := flag_before_result (x := 15) (y := 15) hop hstop hword
  refine ⟨hop, hstop, hword, e', hstep, honly, hread, ?_⟩
  rw [hread]
  exact htwo

/-- The operands of a sum are read before the flag is stored, so the order of the other operations
is kept in no more than these cases. -/
theorem sum_of_old_operands {e : Emulator} {x y : Fin 16} (hstop : e.stopped = false)
    (hword : e.nextWord = 0x8004 + 256 * x.val + 16 * y.val) :
    ∃ e', e.step = (.ok none, e') ∧ OnlyBytes e .add e' ∧
      let v := e.machine.registers.read
      let v' := e'.machine.registers.read
      v' = Operation.add.readOnce v x y ∧
        (v' = Operation.add.flagFirst v x y ↔
          (x ≠ Registers.flag ∧ y ≠ Registers.flag) ∨
            v Registers.flag = Operation.add.flag (v x) (v y) ∨
            (x = Registers.flag ∧ y = Registers.flag ∧ v Registers.flag = 129)) := by
  have hspelt : e.nextWord = 0x8000 + 256 * x.val + 16 * y.val + Operation.add.digit := by
    rw [hword, Operation.digit]
    omega
  obtain ⟨e', hstep, honly, hread⟩ := step_operation hstop hspelt
  refine ⟨e', hstep, honly, hread, ?_⟩
  rw [hread]
  exact readOnce_eq_flagFirst_iff (isByte_read e.machine.registers)

theorem sum_of_old_operands_by_chance : ∃ e,
    Emulator.new {} (.ofList []) = .ok e ∧
      let adding := (e.performAll [.load [0x6F, 0x81, 0x8F, 0xF4] none, .run 1]).2
      adding.stopped = false ∧ adding.nextWord = 0x8004 + 256 * 15 + 16 * 15 ∧
        ∃ e', adding.step = (.ok none, e') ∧ OnlyBytes adding .add e' ∧
          e'.machine.registers.read =
            Operation.add.readOnce adding.machine.registers.read 15 15 ∧
          e'.machine.registers.read =
            Operation.add.flagFirst adding.machine.registers.read 15 15 := by
  refine ⟨_, rfl, ?_⟩
  intro adding
  obtain ⟨hstop, hword, hflag⟩ : adding.stopped = false ∧
      adding.nextWord = 0x8004 + 256 * 15 + 16 * 15 ∧
      adding.machine.registers.read Registers.flag = 129 := by decide +kernel
  obtain ⟨e', hstep, honly, hread, hagree⟩ := sum_of_old_operands (x := 15) (y := 15) hstop hword
  exact ⟨hstop, hword, e', hstep, honly, hread, hagree.mpr (.inr (.inr ⟨rfl, rfl, hflag⟩))⟩

/-- The flag register is the second operand, and a sum without a carry still has its old value in
it. -/
theorem sum_misses_flag : ∃ e,
    Emulator.new {} (.ofList []) = .ok e ∧
      let adding := (e.performAll [.load [0x61, 0x05, 0x6F, 0x07, 0x81, 0xF4] none, .run 2]).2
      adding.stopped = false ∧ adding.nextWord = 0x8004 + 256 * 1 + 16 * 15 ∧
        adding.step.2.machine.registers.read 1 = 12 ∧
        Operation.add.flagFirst adding.machine.registers.read 1 15 1 = 5 ∧
        adding.step.2.machine.registers.read ≠
          Operation.add.flagFirst adding.machine.registers.read 1 15 := by
  refine ⟨_, rfl, ?_⟩
  intro adding
  obtain ⟨hstop, hword, htwelve, hfive⟩ : adding.stopped = false ∧
      adding.nextWord = 0x8000 + 256 * 1 + 16 * 15 + Operation.add.digit ∧
      Operation.add.readOnce adding.machine.registers.read 1 15 1 = 12 ∧
      Operation.add.flagFirst adding.machine.registers.read 1 15 1 = 5 := by decide +kernel
  obtain ⟨e', hstep, -, hread⟩ := step_operation (x := 1) (y := 15) hstop hword
  rw [hstep]
  dsimp only
  rw [hread]
  refine ⟨hstop, hword, htwelve, hfive, ?_⟩
  intro heq
  have hvalue := congrFun heq 1
  rw [hfive] at hvalue
  exact absurd (htwelve.symm.trans hvalue) (by decide)

end Chip8.Proofs.FlagOrder
