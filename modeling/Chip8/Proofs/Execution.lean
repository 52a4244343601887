import Chip8.Machine
import Chip8.Proofs.Drawing

/-!
What one instruction does to the machine. Every integer that an instruction stores in a register is
a byte, every key that it asks for exists, and every sprite starts on the screen; so the stores, the
queries and the drawing have closed forms without errors, and the only instructions that fail are a
call with a full stack and a return with an empty one.
-/

namespace Chip8.Proofs.Execution

open Chip8.Machine
open Chip8.Proofs.Drawing

theorem byte_write_self (r : Registers) (x : Fin 16) (value : UInt8) :
    (r.write x value).byte x = value := by
  simp only [Registers.write, Registers.byte, Fin.getElem_fin, Vector.getElem_set_self]

theorem byte_write_of_ne (r : Registers) {x k : Fin 16} (h : k ≠ x) (value : UInt8) :
    (r.write x value).byte k = r.byte k := by
  have hval : x.val ≠ k.val := fun heq => h (Fin.ext heq.symm)
  simp only [Registers.write, Registers.byte, Fin.getElem_fin, Vector.getElem_set, if_neg hval]

theorem store_of_isByte {value : Int} (h : IsByte value) (r : Registers) (x : Fin 16) :
    r.store x value = .ok (r.write x (toByte value)) := by
  rw [Registers.store, if_pos h]

@[simp]
theorem isByte_read (r : Registers) (x : Fin 16) : IsByte (r.read x) :=
  isByte_toNat _

@[simp]
theorem setRegister_of_isByte {value : Int} (h : IsByte value) (m : Machine) (x : Fin 16) :
    m.setRegister x value = m.setRegisters (m.registers.write x (toByte value)) := by
  rw [setRegister, store_of_isByte h]

def flagged (r : Registers) (x : Fin 16) (flag : Int) (result : Registers → Int) : Registers :=
  let r := r.write Registers.flag (toByte flag)
  r.write x (toByte (result r))

@[simp]
theorem setWithFlag_of_isByte {flag : Int} {result : Registers → Int} (hflag : IsByte flag)
    (hresult : ∀ r, IsByte (result r)) (m : Machine) (x : Fin 16) :
    m.setWithFlag x flag result = m.setRegisters (flagged m.registers x flag result) := by
  rw [setWithFlag, store_of_isByte hflag]
  simp only [setRegister_of_isByte (hresult _)]
  rfl

theorem toKey_nibble (n : Int) :
    (HostValue.int (n % 16)).toKey = .ok ⟨(n % 16).toNat, by omega⟩ := by
  rw [HostValue.toKey, dif_pos (by omega)]

theorem query_nibble (k : Keypad) (n : Int) :
    k.query (.int (n % 16)) = .ok (k.isDown ⟨(n % 16).toNat, by omega⟩) := by
  rw [Keypad.query, toKey_nibble]

@[simp]
theorem skipByKey_eq (m : Machine) (x : Fin 16) (down : Bool) :
    m.skipByKey x down =
      { machine := m.next
          (m.keypad.isDown ⟨(m.registers.read x % 16).toNat, by omega⟩ == down) } := by
  unfold skipByKey
  rw [query_nibble]

theorem draw_eq (m : Machine) (x y : Fin 16) (height : Nat) :
    ∃ screen flag, m.draw x y height =
      { machine := { m with
          screen
          registers := (m.registers.write Registers.flag flag).advance 2 }
        result := .ok (some .displayUpdated) } := by
  obtain ⟨screen, collided, hdraw⟩ := draw_ok (x := m.registers.read x % 64)
    (y := m.registers.read y % 32) (by omega) (by omega) m.screen
    ((List.range height).map fun (k : Nat) => ((m.memory.read (m.registers.i + k)).toNat : Int))
  refine ⟨screen, if collided then 1 else 0, ?_⟩
  rw [Machine.draw]
  simp only [hdraw]

theorem call_cases (m : Machine) (target : Nat) :
    (m.registers.sp = 16 ∧ m.call target =
      { machine := m, result := .error (.fault (.stackOverflow m.registers.pc)) }) ∨
    ∃ h : m.registers.sp.val < 16, m.call target =
      { machine := { m with registers := { m.registers with
          stack := m.registers.stack.set m.registers.sp.val
            (UInt16.ofNat ((m.registers.pc + 2) % 65536).toNat)
          sp := ⟨m.registers.sp.val + 1, by omega⟩
          pc := target } } } := by
  by_cases hfree : m.registers.sp.val < 16
  · refine .inr ⟨hfree, ?_⟩
    rw [Machine.call, Registers.push, dif_pos hfree]
  · refine .inl ⟨Fin.ext (show m.registers.sp.val = 16 by omega), ?_⟩
    rw [Machine.call, Registers.push, dif_neg hfree]

theorem ret_cases (m : Machine) :
    (m.registers.sp = 0 ∧ m.ret =
      { machine := m, result := .error (.fault (.stackUnderflow m.registers.pc)) }) ∨
    ∃ (k : Nat) (h : k < 16), m.registers.sp.val = k + 1 ∧ m.ret =
      { machine := { m with registers := { m.registers with
          sp := ⟨k, by omega⟩
          pc := m.registers.stack[k].toNat } } } := by
  rw [Machine.ret, Registers.pop]
  split
  · rename_i heq
    split at heq
    · cases heq
      rename_i hempty
      exact .inl ⟨Fin.ext hempty, rfl⟩
    · cases heq
  · rename_i heq
    split at heq
    · cases heq
    · rename_i k hk
      cases heq
      exact .inr ⟨k, by omega, hk, rfl⟩

/-- What an instruction can do to a machine, by kinds of instructions: the machine, the remarks and
the result that it gives. -/
inductive Effect (m : Machine) (word : Int) (op : Opcode) : Execution → Prop
  | skip (hop : op ∈ [.skipIfByte, .skipUnlessByte, .skipIfSame, .skipUnlessSame, .skipIfKey,
      .skipUnlessKey]) (taken : Bool) : Effect m word op { machine := m.next taken }
  | assign (hop : op ∈ [.setByte, .addByte, .copy, .or, .and, .xor, .add, .subtract, .shiftRight,
      .subtractFrom, .shiftLeft, .readDelay, .waitKey, .load]) (v : Vector UInt8 16) :
      Effect m word op (m.setRegisters { m.registers with v })
  | random (hop : op = .random) (v : Vector UInt8 16) :
      Effect m word op
        ({ m with random := m.random.next.2 }.setRegisters { m.registers with v })
  | index (hop : op ∈ [.setIndex, .addIndex, .glyph]) (i : Int) (hi : 0 ≤ i ∧ i < 65536) :
      Effect m word op (m.setRegisters { m.registers with i })
  | clear (hop : op = .clear) : Effect m word op { machine := { m with screen := {} }.next false }
  | draw (hop : op = .draw) (screen : Framebuffer 64 32) (v : Vector UInt8 16) :
      Effect m word op
        { machine := { m with screen, registers := { m.registers with v }.advance 2 }
          result := .ok (some .displayUpdated) }
  | setDelay (hop : op = .setDelay) :
      Effect m word op
        { machine := { m with delay := .set (m.registers.read (regX word)) }.next false }
  | setSound (hop : op = .setSound) :
      Effect m word op
        { machine := { m with sound := .set (m.registers.read (regX word)) }.next false
          result := .ok (if m.registers.read (regX word) > 0 then some .soundOn else none) }
  | write (hop : op ∈ [.decimal, .store]) (data : List UInt8) :
      Effect m word op (m.writeMemory data)
  | wait (hop : op = .waitKey) : Effect m word op { machine := m }
  | jump (hop : op = .jump) : Effect m word op (m.jump (address word))
  | jumpOffset (hop : op = .jumpOffset) :
      Effect m word op
        { machine := { m with registers :=
            { m.registers with pc := (m.registers.read Registers.offset + address word) % 65536 } } }
  | call (hop : op = .call) : Effect m word op (m.call (address word))
  | ret (hop : op = .ret) : Effect m word op m.ret

theorem effect_setRegister {m : Machine} {word : Int} {op : Opcode}
    (hop : op ∈ [.setByte, .addByte, .copy, .or, .and, .xor, .add, .subtract, .shiftRight,
      .subtractFrom, .shiftLeft, .readDelay, .waitKey, .load])
    (x : Fin 16) {value : Int} (hvalue : IsByte value) :
    Effect m word op (m.setRegister x value) := by
  rw [setRegister_of_isByte hvalue]
  exact .assign hop _

theorem address_lt (word : Int) : address word < 4096 := by
  simp only [address, Field.value]
  omega

/-- Every instruction has one of the effects of its kind. -/
theorem effect_execute (m : Machine) (op : Opcode) (word : Int) :
    Effect m word op (m.execute op word) := by
  have hbyte := isByte_read m.registers (regX word)
  have haddress := address_lt word
  cases op with
  | clear => exact .clear rfl
  | ret => exact .ret rfl
  | jump => exact .jump rfl
  | call => exact .call rfl
  | skipIfByte | skipUnlessByte | skipIfSame | skipUnlessSame => exact .skip (by decide) _
  | skipIfKey | skipUnlessKey =>
      simp only [execute, skipByKey_eq]
      exact .skip (by decide) _
  | setByte | or | and | xor | readDelay =>
      simp only [execute]
      exact effect_setRegister (by decide) _ (isByte_toNat _)
  | addByte =>
      simp only [execute]
      exact effect_setRegister (by decide) _ (isByte_emod _)
  | copy =>
      simp only [execute]
      exact effect_setRegister (by decide) _ (isByte_read _ _)
  | add =>
      simp only [execute, Arithmetic.add]
      rw [setWithFlag_of_isByte (isByte_ite _) fun _ => isByte_emod _]
      exact .assign (by decide) _
  | subtract | subtractFrom =>
      simp only [execute, Arithmetic.noBorrow, Arithmetic.sub]
      rw [setWithFlag_of_isByte (isByte_ite _) fun _ => isByte_emod _]
      exact .assign (by decide) _
  | shiftRight | shiftLeft =>
      simp only [execute, Arithmetic.lowBit, Arithmetic.shiftRight, Arithmetic.shiftLeft]
      rw [setWithFlag_of_isByte (by simp only [IsByte]; omega) fun _ => isByte_emod _]
      exact .assign (by decide) _
  | setIndex => exact .index (by decide) _ (by omega)
  | jumpOffset => exact .jumpOffset rfl
  | random =>
      simp only [execute]
      rw [setRegister_of_isByte (isByte_toNat _)]
      exact .random rfl _
  | draw =>
      obtain ⟨screen, flag, hdraw⟩ := draw_eq m (regX word) (regY word) (lowNibble word)
      simp only [execute, hdraw]
      exact .draw rfl screen _
  | waitKey =>
      simp only [execute]
      split
      · rename_i key _
        exact effect_setRegister (by decide) _ (by simp only [IsByte]; omega)
      · exact .wait rfl
  | setDelay => exact .setDelay rfl
  | setSound => exact .setSound rfl
  | addIndex => exact .index (by decide) _ (by omega)
  | glyph =>
      refine .index (by decide) _ ?_
      simp only [IsByte, glyphSize] at hbyte ⊢
      omega
  | decimal | store =>
      simp only [execute]
      exact .write (by decide) _
  | load => exact .assign (by decide) _

end Chip8.Proofs.Execution
