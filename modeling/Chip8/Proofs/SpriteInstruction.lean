import Chip8.Proofs.Decoding
import Chip8.Proofs.MemoryCells
import Chip8.Proofs.NoteTaking
import Chip8.Proofs.Sprites

namespace Chip8.Proofs.SpriteInstruction

open Chip8.Emulator
open Chip8.Proofs.Decoding
open Chip8.Proofs.Execution
open Chip8.Proofs.MemoryCells
open Chip8.Proofs.NoteTaking
open Chip8.Proofs.Pixels
open Chip8.Proofs.Sprites
open Chip8.Proofs.Stepping

section

variable (m : Machine) (x y : Fin 16) (n : Nat)

/-- The rows of a sprite, from the address register on. -/
def spriteRows : List Int :=
  (List.range n).map fun (k : Nat) => ((m.memory.read (m.registers.i + k)).toNat : Int)

/-- Whether the sprite of `n` rows at the address register has a pixel in column `c` of row `r`, if
it starts at the position that two registers hold. -/
def spriteBit (c r : Int) : Bool :=
  let left := m.registers.read x % 64
  let top := m.registers.read y % 32
  decide (left ≤ c ∧ c ≤ left + 7 ∧ top ≤ r ∧ r < top + n) &&
    (m.memory.read ((m.registers.i + (r - top)) % 4096)).toNat.testBit (7 - (c - left)).toNat

def Strikes : Prop :=
  ∃ c r, OnScreen 64 32 c r ∧ spriteBit m x y n c r = true ∧ pixel m.screen c r = true

/-- What a machine is after it has drawn the sprite. -/
structure Drawn (m' : Machine) : Prop where
  pixels : ∀ c r, OnScreen 64 32 c r →
    pixel m'.screen c r = (pixel m.screen c r ^^ spriteBit m x y n c r)
  flag : (m'.registers.byte Registers.flag = 1 ∧ Strikes m x y n) ∨
    (m'.registers.byte Registers.flag = 0 ∧ ¬ Strikes m x y n)
  bytes : ∀ k ≠ Registers.flag, m'.registers.byte k = m.registers.byte k
  rest : m' = { m with
    screen := m'.screen
    registers := { m.registers with
      v := m'.registers.v
      pc := (m.registers.pc + 2) % 65536 } }

theorem covers_eq_spriteBit (c r : Int) :
    covers (spriteRows m n) (m.registers.read x % 64) (m.registers.read y % 32) c r =
      spriteBit m x y n c r := by
  rw [spriteBit, covers]
  generalize m.registers.read x % 64 = left, m.registers.read y % 32 = top
  by_cases hrow : top ≤ r ∧ r < top + n
  · obtain ⟨htop, hbottom⟩ := hrow
    have hindex : (r - top).toNat < n := by omega
    have hdistance : ((r - top).toNat : Int) = r - top := by omega
    have haddress := read_congr m.memory (Int.emod_emod_of_dvd (m.registers.i + (r - top))
      (Int.dvd_refl 4096))
    simp [spriteRows, hindex, hdistance, haddress, spans, htop, hbottom]
  · have hnone : ¬ (left ≤ c ∧ c ≤ left + 7 ∧ top ≤ r ∧ r < top + n) := fun h => hrow h.2.2
    rw [decide_eq_false hnone, Bool.false_and]
    by_cases htop : top ≤ r
    · have hpast : (spriteRows m n)[(r - top).toNat]? = none := by
        rw [List.getElem?_eq_none_iff, spriteRows, List.length_map, List.length_range]
        omega
      rw [hpast, Option.any_none, Bool.and_false]
    · rw [decide_eq_false htop, Bool.false_and]

theorem collides_iff_strikes :
    Collides m.screen (spriteRows m n) (m.registers.read x % 64) (m.registers.read y % 32) ↔
      Strikes m x y n := by
  simp only [Collides, Strikes, covers_eq_spriteBit]

theorem drawn_draw : Drawn m x y n (m.draw x y n).machine := by
  obtain ⟨hpixels, struck, hanswer, hstruck⟩ :=
    blit_draw (x := m.registers.read x % 64) (y := m.registers.read y % 32) (by omega) (by omega)
      m.screen (spriteRows m n)
  rw [collides_iff_strikes] at hstruck
  have hdraw : m.screen.draw (m.registers.read x % 64) (m.registers.read y % 32) (spriteRows m n) =
      ((m.screen.draw (m.registers.read x % 64) (m.registers.read y % 32) (spriteRows m n)).1,
        .ok struck) := Prod.ext rfl hanswer
  rw [Machine.draw, ← spriteRows, hdraw]
  dsimp only
  constructor
  case pixels =>
    intro c r h
    rw [hpixels c r h, covers_eq_spriteBit]
  case flag =>
    have hflag := byte_write_self m.registers Registers.flag (if struck then 1 else 0)
    cases struck with
    | true => exact .inl ⟨hflag, by simpa using hstruck⟩
    | false => exact .inr ⟨hflag, by simpa using hstruck⟩
  case bytes =>
    intro k hk
    exact byte_write_of_ne m.registers hk _
  case rest => rfl

end

theorem lookup_draw {word : Nat} {x y : Fin 16} {n : Nat} (hn : n < 16)
    (hword : word = 0xD000 + 256 * x.val + 16 * y.val + n) :
    Opcode.lookup word = some .draw ∧ regX word = x ∧ regY word = y ∧ lowNibble word = n := by
  have hx := x.isLt
  have hy := y.isLt
  refine ⟨?_, Fin.ext ?_, Fin.ext ?_, ?_⟩
  · have hkey : Opcode.draw.key = 0xD000 := rfl
    rw [lookup_eq_some_iff_family rfl, family_of_lt (by omega), hkey]
    omega
  · simp only [regX, Field.value]
    omega
  · simp only [regY, Field.value]
    omega
  · simp only [lowNibble, Field.value]
    omega

theorem silent_draw {e : Emulator} {x y : Fin 16} {n : Nat} (hn : n < 16)
    (hword : e.nextWord = 0xD000 + 256 * x.val + 16 * y.val + n) :
    (silent e).1 = .ok (some .displayUpdated) ∧
      (silent e).2.machine = (e.machine.draw x y n).machine := by
  obtain ⟨hop, hx, hy, hnibble⟩ := lookup_draw hn hword
  obtain ⟨screen, flag, hdraw⟩ := draw_eq e.machine x y n
  have hexecute : e.machine.execute .draw e.nextWord = e.machine.draw x y n := by
    rw [Machine.execute, hx, hy, hnibble]
  simp only [silent, hop, hexecute, hdraw, true_and]
  rfl

/-- The sprite instruction has done all that it does when it tells the listeners. -/
theorem sprite_drawn {e : Emulator} {x y : Fin 16} {n : Nat} (hn : n < 16)
    (hword : e.nextWord = 0xD000 + 256 * x.val + 16 * y.val + n) :
    ∃ e', Drawn e.machine x y n e'.machine ∧ Ran e e' ∧
      e.executeWith notify = settle (e'.emit notify .displayUpdated) ∧
      (e.stopped = false → Recording e.listeners →
        ∃ e'', e.step = (.ok none, e'') ∧ Drawn e.machine x y n e''.machine ∧ Ran e e'') := by
  obtain ⟨hevent, hmachine⟩ := silent_draw hn hword
  have hsilent : silent e = (.ok (some .displayUpdated), (silent e).2) := Prod.ext hevent rfl
  have hdrawn := drawn_draw e.machine x y n
  rw [← hmachine] at hdrawn
  refine ⟨(silent e).2, hdrawn, ran_silent e, ?_, ?_⟩
  · rw [executeWith_eq, hsilent]
  · intro hstop hrecording
    obtain ⟨e'', hexecute, hsame, hran⟩ := executeWith_of_silent hrecording hsilent
    rw [← hsame] at hdrawn
    have hrunning : e''.machine.stop = none := by
      rw [hdrawn.rest]
      exact (stopped_eq_false_iff e).mp hstop
    refine ⟨e'', ?_, hdrawn, hran⟩
    rw [step, stepWith, hstop, hexecute]
    simp [stopReason_of_running hrunning]

theorem sprite_drawn_again : ∃ e,
    Emulator.new {} (.ofList []) = .ok e ∧
      let drawing := (e.performAll
        [.load [0x6F, 0x7E, 0x62, 0x3D, 0xAF, 0xFE, 0xDF, 0x24, 0x6F, 0x7E, 0xDF, 0x24] none,
          .run 5]).2
      4 < 16 ∧ drawing.nextWord = 0xD000 + 256 * 15 + 16 * 2 + 4 ∧
        drawing.stopped = false ∧ Recording drawing.listeners ∧
        ∃ e'', drawing.step = (.ok none, e'') ∧ Drawn drawing.machine 15 2 4 e''.machine ∧
          e''.machine.registers.byte Registers.flag = 1 := by
  refine ⟨_, rfl, ?_⟩
  intro drawing
  have hword : drawing.nextWord = 0xD000 + 256 * 15 + 16 * 2 + 4 := by decide +kernel
  have hstop : drawing.stopped = false := by decide +kernel
  have hrecording : Recording drawing.listeners := recording_of_isEmpty (by decide +kernel)
  obtain ⟨-, -, -, -, hstep⟩ := sprite_drawn (x := 15) (y := 2) (n := 4) (by decide) hword
  obtain ⟨e'', hstep, hdrawn, -⟩ := hstep hstop hrecording
  have hlit : spriteBit drawing.machine 15 2 4 62 31 = true ∧
      pixel drawing.machine.screen 62 31 = true := by decide +kernel
  have hstrikes : Strikes drawing.machine 15 2 4 :=
    ⟨62, 31, ⟨by decide, by decide, by decide, by decide⟩, hlit.1, hlit.2⟩
  have hflag := (hdrawn.flag.resolve_right fun h => h.2 hstrikes).1
  exact ⟨by decide, hword, hstop, hrecording, e'', hstep, hdrawn, hflag⟩

end Chip8.Proofs.SpriteInstruction
