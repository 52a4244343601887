import Chip8.Proofs.Batches
import Chip8.Proofs.Decoding
import Chip8.Proofs.FlagOrder
import Chip8.Proofs.HeldKeys
import Chip8.Proofs.TraceAndLog

namespace Chip8.Proofs.KeyWait

open Chip8.Emulator
open Chip8.Machine
open Chip8.Proofs.Batches
open Chip8.Proofs.Decoding
open Chip8.Proofs.Execution
open Chip8.Proofs.FlagOrder
open Chip8.Proofs.HeldKeys
open Chip8.Proofs.NoteTaking
open Chip8.Proofs.Stepping
open Chip8.Proofs.TraceAndLog

/-- The next instruction waits for a key, for a register. -/
structure AtKeyWait (e : Emulator) (x : Fin 16) : Prop where
  running : e.stopped = false
  op : Opcode.lookup e.nextWord = some .waitKey
  register : regX e.nextWord = x

def NoneDown (e : Emulator) : Prop :=
  ∀ key, e.machine.keypad.isDown key = false

section

variable {e e' : Emulator} {x : Fin 16}

theorem AtKeyWait.congr (h : AtKeyWait e x) (hstop : e'.machine.stop = e.machine.stop)
    (hmemory : e'.machine.memory = e.machine.memory)
    (hpc : e'.machine.registers.pc = e.machine.registers.pc) : AtKeyWait e' x := by
  have hword : e'.nextWord = e.nextWord := by
    rw [nextWord, nextWord, hmemory, hpc]
  constructor
  case running => rw [stopped, hstop, ← stopped, h.running]
  case op => rw [hword, h.op]
  case register => rw [hword, h.register]

theorem AtKeyWait.beside (h : AtKeyWait e x) (hbeside : Beside e e') : AtKeyWait e' x := by
  have hmachine := hbeside.machine
  exact h.congr (by rw [hmachine]) (by rw [hmachine]) (by rw [hmachine])

theorem NoneDown.beside (h : NoneDown e) (hbeside : Beside e e') : NoneDown e' := by
  intro key
  rw [hbeside.machine, h key]

variable (notify : Emulator → Listener → Reply Unit) (hwait : AtKeyWait e x) (hnone : NoneDown e)

include hwait hnone

end

end Chip8.Proofs.KeyWait
