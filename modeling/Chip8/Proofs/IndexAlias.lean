import Chip8.Proofs.Loading
import Chip8.Proofs.MemoryCells

namespace Chip8.Proofs.IndexAlias

open Chip8.Emulator
open Chip8.Machine
open Chip8.Memory
open Chip8.Proofs.Execution
open Chip8.Proofs.Loading
open Chip8.Proofs.MemoryCells
open Chip8.Proofs.Stepping
open Chip8.Proofs.TwoRuns

def reindexed (m : Machine) (i : Int) : Machine :=
  { m with registers := { m.registers with i } }

@[simp]
theorem read_reindexed (m : Machine) (i : Int) (x : Fin 16) :
    (reindexed m i).registers.read x = m.registers.read x :=
  rfl

@[simp]
theorem byte_reindexed (m : Machine) (i : Int) (x : Fin 16) :
    (reindexed m i).registers.byte x = m.registers.byte x :=
  rfl

@[simp]
theorem keypad_reindexed (m : Machine) (i : Int) : (reindexed m i).keypad = m.keypad :=
  rfl

@[simp]
theorem i_fill (r : Registers) (last : Fin 16) (value : Fin 16 → UInt8) :
    (r.fill last value).i = r.i := by
  simp only [Registers.fill]

theorem fill_reindexed (m : Machine) (i : Int) (last : Fin 16) (value : Fin 16 → UInt8) :
    (reindexed m i).registers.fill last value = { m.registers.fill last value with i } :=
  rfl

/-- The second machine is the first one with an address register that selects the same cell. -/
inductive Aliased (m : Machine) : Machine → Prop
  | mk (i : Int) (h : m.registers.i % 4096 = i % 4096) : Aliased m (reindexed m i)

theorem Aliased.refl (m : Machine) : Aliased m m :=
  .mk m.registers.i rfl

structure SameEffect (x y : Execution) : Prop where
  machine : Aliased x.machine y.machine
  remarks : x.remarks.map Remark.toRecord = y.remarks.map Remark.toRecord
  result : x.result = y.result

theorem SameEffect.keep {x : Execution} {i : Int} (h : x.machine.registers.i % 4096 = i % 4096) :
    SameEffect x { x with machine := reindexed x.machine i } :=
  ⟨.mk i h, rfl, rfl⟩

theorem region_congr {a b : Int} (h : a % 4096 = b % 4096) : Region.of a = Region.of b := by
  rw [region_of_eq, region_of_eq, (cell_eq_iff a b).mpr h]

theorem write_congr (m : Memory) {a b : Int} (h : a % 4096 = b % 4096) (value : Int) :
    m.write a value = m.write b value := by
  simp only [Memory.write, Memory.set, region_congr h, (cell_eq_iff a b).mpr h]

theorem toRecord_congr {a b : Int} (h : a % 4096 = b % 4096) (value : UInt8) :
    (Remark.dropped value a).toRecord = (Remark.dropped value b).toRecord := by
  simp only [Remark.toRecord, region_congr h, (cell_eq_iff a b).mpr h]

theorem writeAll_congr (m : Memory) (data : List UInt8) {a b : Int} (h : a % 4096 = b % 4096) :
    (m.writeAll a data).1 = (m.writeAll b data).1 ∧
      (m.writeAll a data).2.map Remark.toRecord = (m.writeAll b data).2.map Remark.toRecord := by
  induction data generalizing m a b with
  | nil => exact ⟨rfl, rfl⟩
  | cons value rest ih =>
      have hnext : (a + 1) % 4096 = (b + 1) % 4096 := by omega
      obtain ⟨hmemory, hremarks⟩ := ih (m.write b value.toNat).2 hnext
      simp only [writeAll, write_congr m h]
      refine ⟨hmemory, ?_⟩
      split
      · exact hremarks
      · rw [List.map_cons, List.map_cons, toRecord_congr h, hremarks]

section

variable {m : Machine} {i : Int} (h : m.registers.i % 4096 = i % 4096)

include h

theorem sameEffect_setRegister (x : Fin 16) (value : Int) :
    SameEffect (m.setRegister x value) ((reindexed m i).setRegister x value) := by
  by_cases hvalue : IsByte value
  · simp only [setRegister, Registers.store, if_pos hvalue]
    exact .keep h
  · simp only [setRegister, Registers.store, if_neg hvalue]
    exact .keep h

theorem sameEffect_setWithFlag (x : Fin 16) (flag : Int) {result : Registers → Int}
    (hresult : ∀ r : Registers, result { r with i } = result r) :
    SameEffect (m.setWithFlag x flag result) ((reindexed m i).setWithFlag x flag result) := by
  by_cases hflag : IsByte flag
  -- The result is computed from the registers with the flag in them.
  · have hflagged : (reindexed m i).registers.write Registers.flag (toByte flag) =
        { m.registers.write Registers.flag (toByte flag) with i } := rfl
    simp only [setWithFlag, Registers.store, if_pos hflag, hflagged, hresult]
    exact @sameEffect_setRegister { m with registers := m.registers.write _ _ } i h x _
  · simp only [setWithFlag, Registers.store, if_neg hflag]
    exact .keep h

theorem sameEffect_jump (target : Nat) :
    SameEffect (m.jump target) ((reindexed m i).jump target) := by
  by_cases hself : m.registers.pc = target
  · rw [jump, jump, if_pos hself, if_pos (by exact hself)]
    exact .keep h
  · rw [jump, jump, if_neg hself, if_neg (by exact hself)]
    exact .keep h

theorem sameEffect_call (target : Nat) :
    SameEffect (m.call target) ((reindexed m i).call target) := by
  by_cases hfree : m.registers.sp.val < 16
  · rw [Machine.call, Machine.call, Registers.push, Registers.push, dif_pos hfree,
      dif_pos (by exact hfree)]
    exact .keep h
  · rw [Machine.call, Machine.call, Registers.push, Registers.push, dif_neg hfree,
      dif_neg (by exact hfree)]
    exact .keep h

theorem sameEffect_ret : SameEffect m.ret (reindexed m i).ret := by
  obtain ⟨⟨v, i', pc, sp, stack⟩, memory, screen, keypad, delay, sound, random, stop⟩ := m
  obtain ⟨_ | k, hk⟩ := sp
  · exact .keep h
  · exact .keep h

theorem sameEffect_skipByKey (x : Fin 16) (down : Bool) :
    SameEffect (m.skipByKey x down) ((reindexed m i).skipByKey x down) := by
  rw [skipByKey_eq, skipByKey_eq]
  exact .keep h

theorem sameEffect_draw (x y : Fin 16) (height : Nat) :
    SameEffect (m.draw x y height) ((reindexed m i).draw x y height) := by
  have hrows : (fun k : Nat => ((m.memory.read (m.registers.i + k)).toNat : Int)) =
      fun k : Nat => ((m.memory.read (i + k)).toNat : Int) := by
    funext k
    rw [read_congr m.memory (show (m.registers.i + k) % 4096 = (i + k) % 4096 by omega)]
  unfold draw
  dsimp only [reindexed, Registers.read, Registers.byte]
  rw [hrows]
  split
  · exact .keep h
  · exact .keep h

theorem sameEffect_writeMemory (data : List UInt8) :
    SameEffect (m.writeMemory data) ((reindexed m i).writeMemory data) := by
  obtain ⟨hmemory, hremarks⟩ := writeAll_congr m.memory data h
  refine ⟨?_, hremarks, rfl⟩
  dsimp only [writeMemory, reindexed]
  rw [hmemory]
  exact .mk i h

theorem sameEffect_load (x : Fin 16) :
    SameEffect (m.setRegisters (m.registers.fill x fun k => m.memory.read (m.registers.i + k.val)))
      ((reindexed m i).setRegisters
        ((reindexed m i).registers.fill x fun k => m.memory.read (i + k.val))) := by
  have hbytes : (fun k : Fin 16 => m.memory.read (m.registers.i + k.val)) =
      fun k : Fin 16 => m.memory.read (i + k.val) := by
    funext k
    exact read_congr m.memory (by omega)
  rw [hbytes, fill_reindexed]
  have hindex := i_fill m.registers x fun k => m.memory.read (i + k.val)
  generalize m.registers.fill x (fun k => m.memory.read (i + k.val)) = r at hindex
  rw [← hindex] at h
  exact .keep h

theorem sameEffect_execute (op : Opcode) (word : Int) :
    SameEffect (m.execute op word) ((reindexed m i).execute op word) := by
  -- The three instructions that set the address register keep its low bits alike, since a sum that
  -- wraps around at sixteen bits keeps them.
  cases op with
  | clear | skipIfByte | skipUnlessByte | skipIfSame | skipUnlessSame | jumpOffset | setDelay
  | setSound =>
      simp only [execute, read_reindexed, byte_reindexed]
      exact .keep h
  | setByte | addByte | copy | or | and | xor | readDelay =>
      simp only [execute, read_reindexed, byte_reindexed]
      exact sameEffect_setRegister h _ _
  | add | subtract | shiftRight | subtractFrom | shiftLeft =>
      simp only [execute, read_reindexed]
      exact sameEffect_setWithFlag h _ _ fun _ => rfl
  | ret => exact sameEffect_ret h
  | jump => exact sameEffect_jump h _
  | call => exact sameEffect_call h _
  | skipIfKey | skipUnlessKey => exact sameEffect_skipByKey h _ _
  | draw => exact sameEffect_draw h _ _ _
  | decimal | store =>
      simp only [execute, read_reindexed]
      exact sameEffect_writeMemory h _
  | load =>
      simp only [execute]
      exact sameEffect_load h _
  | random =>
      simp only [execute]
      exact @sameEffect_setRegister { m with random := m.random.next.2 } i h _ _
  | waitKey =>
      simp only [execute, keypad_reindexed]
      cases m.keypad.first? with
      | some key => exact sameEffect_setRegister h _ _
      | none => exact .keep h
  | setIndex | glyph =>
      simp only [execute, read_reindexed]
      exact ⟨.refl _, rfl, rfl⟩
  | addIndex =>
      simp only [execute, read_reindexed]
      -- Only one of the sums may wrap around, which its low twelve bits do not tell.
      refine ⟨.mk ((i + m.registers.read (regX word)) % 65536) ?_, rfl, rfl⟩
      simp only [setRegisters, withRegisters, Registers.advance]
      omega

end

/-- A record without its text if it repeats a line of the trace, which shows all registers. -/
def wordless (r : Record) : Record :=
  if r.level = .debug ∧ r.logger = emulatorLogger then { r with message := "" } else r

/-- Emulators that differ in nothing but the high bits of the address register and in what they
traced of them. -/
inductive Alike (e : Emulator) : Emulator → Prop
  | mk {machine : Machine} {trace : Trace} {log : Array Record}
      (hmachine : Aliased e.machine machine)
      (htrace : e.trace.lines.size = trace.lines.size)
      (hlog : e.log.map wordless = log.map wordless) : Alike e { e with machine, trace, log }

theorem size_push {t t' : Trace} (h : t.lines.size = t'.lines.size) (line line' : String) :
    (t.push line).lines.size = (t'.push line').lines.size := by
  simp only [Trace.push, h]
  split <;> simp [h]

section

variable {e₁ e₂ : Emulator} (h : Alike e₁ e₂)

include h

theorem Alike.note (level : Level) (message : String) :
    Alike (e₁.note level message) (e₂.note level message) := by
  obtain ⟨hmachine, htrace, hlog⟩ := h
  refine ⟨hmachine, htrace, ?_⟩
  simp only [Emulator.note, Array.map_push, hlog]

theorem Alike.latch (f : Fault) : Alike (e₁.latch f) (e₂.latch f) := by
  obtain ⟨⟨i, hi⟩, htrace, hlog⟩ := h
  apply Alike.note
  exact ⟨.mk i hi, htrace, hlog⟩

theorem Alike.traced (op : Opcode) (word : Nat) : Alike (e₁.traced op word) (e₂.traced op word) := by
  obtain ⟨hmachine, htrace, hlog⟩ := h
  rw [Emulator.traced, Emulator.traced]
  split
  · refine ⟨hmachine, size_push htrace _ _, ?_⟩
    simp only [Emulator.note, Array.map_push, hlog, wordless, and_self, if_true]
  · exact ⟨hmachine, htrace, hlog⟩

theorem Alike.commit {x y : Execution} (hxy : SameEffect x y) :
    Alike (e₁.commit x) (e₂.commit y) := by
  obtain ⟨-, htrace, hlog⟩ := h
  refine ⟨hxy.machine, htrace, ?_⟩
  simp only [Emulator.commit, List.foldl_push_eq_append, Array.map_append, hlog, hxy.remarks]

theorem Alike.noted (l : Listener) : Alike (Emulator.noted e₁ l) (Emulator.noted e₂ l) := by
  obtain ⟨hmachine, htrace, hlog⟩ := h
  obtain ⟨i, hi⟩ := hmachine
  exact ⟨.mk i hi, htrace, hlog⟩

theorem Alike.warned (program : List UInt8) :
    Alike (Emulator.warned e₁ program) (Emulator.warned e₂ program) := by
  rw [Emulator.warned, Emulator.warned]
  split
  · exact h.note _ _
  · exact h

theorem Alike.loaded (program : List UInt8) (clock : Clock) :
    Alike (Loading.loaded e₁ program clock) (Loading.loaded e₂ program clock) := by
  have hwarned := h.warned program
  have hstarted : started e₁ program = started e₂ program := by
    obtain ⟨⟨i, hi⟩, -, -⟩ := h
    rfl
  rw [Loading.loaded, Loading.loaded, hstarted]
  apply Alike.note
  generalize Emulator.warned e₁ program = w₁, Emulator.warned e₂ program = w₂ at hwarned
  obtain ⟨-, -, hlog⟩ := hwarned
  exact ⟨.refl _, rfl, hlog⟩

end

/-- A script that goes on alike on machines that differ in the high bits of the address register. -/
inductive Unseeing : Script → Prop
  | done : Unseeing .done
  | fail (err : Error) : Unseeing (.fail err)
  | ask (r : Request) {next : Except Error Answer → Machine → Script}
      (hsame : ∀ answer m m', Aliased m m' → next answer m = next answer m')
      (hnext : ∀ answer m, Unseeing (next answer m)) : Unseeing (.ask r next)

/-- A listener that does not look at the high bits of the address register. -/
structure Blind (l : Listener) : Prop where
  same : ∀ notices m m', Aliased m m' →
    l.action.toScript l.event notices m = l.action.toScript l.event notices m'
  unseeing : ∀ notices m, Unseeing (l.action.toScript l.event notices m)

theorem unseeing_once (r : Request) : Unseeing (.once r) := by
  refine .ask r (fun _ _ _ _ => rfl) fun answer m => ?_
  cases answer with
  | ok answer => exact .done
  | error err => exact .fail err

theorem blind_of_action {l : Listener} (h : ∀ behave, l.action ≠ .script behave) : Blind l := by
  obtain ⟨name, event, action⟩ := l
  cases action with
  | record => exact ⟨fun _ _ _ _ => rfl, fun _ _ => .done⟩
  | fail err => exact ⟨fun _ _ _ _ => rfl, fun _ _ => .fail err⟩
  | key value => exact ⟨fun _ _ _ _ => rfl, fun _ _ => unseeing_once _⟩
  | remove name => exact ⟨fun _ _ _ _ => rfl, fun _ _ => unseeing_once _⟩
  | add name => exact ⟨fun _ _ _ _ => rfl, fun _ _ => unseeing_once _⟩
  | step => exact ⟨fun _ _ _ _ => rfl, fun _ _ => unseeing_once _⟩
  | load program => exact ⟨fun _ _ _ _ => rfl, fun _ _ => unseeing_once _⟩
  | script behave => exact absurd rfl (h behave)

structure Alongside (e₁ e₂ : Emulator) : Prop where
  alike : Alike e₁ e₂
  blind : AllListeners Blind e₁.listeners

theorem Unseeing.matched {s : Script} (h : Unseeing s) :
    Matched Alongside (fun _ _ _ => True) s s := by
  induction h with
  | done => exact .done
  | fail err => exact .fail err fun _ _ _ _ _ => trivial
  | @ask r next hsame _ ih =>
      refine .ask r fun answer e₁ e₂ hR _ => ?_
      obtain ⟨⟨hmachine, -, -⟩, -⟩ := hR
      rw [← hsame answer e₁.machine _ hmachine]
      exact ih answer e₁.machine

theorem alike_silent {e₁ e₂ : Emulator} (h : Alike e₁ e₂) :
    (silent e₁).1 = (silent e₂).1 ∧ Alike (silent e₁).2 (silent e₂).2 := by
  have hword : e₁.nextWord = e₂.nextWord := by
    obtain ⟨⟨i, hi⟩, -, -⟩ := h
    rfl
  have hcounter : e₁.machine.registers.pc = e₂.machine.registers.pc := by
    obtain ⟨⟨i, hi⟩, -, -⟩ := h
    rfl
  simp only [silent, ← hword, ← hcounter]
  cases Opcode.lookup e₁.nextWord with
  | none => exact ⟨rfl, h.latch _⟩
  | some op =>
      have heffect : SameEffect (e₁.machine.execute op e₁.nextWord)
          (e₂.machine.execute op e₁.nextWord) := by
        obtain ⟨⟨i, hi⟩, -, -⟩ := h
        exact sameEffect_execute hi op _
      have hcommitted := (h.traced op e₁.nextWord).commit heffect
      dsimp only
      rw [← heffect.result]
      split
      · exact ⟨rfl, hcommitted.latch _⟩
      · exact ⟨rfl, hcommitted⟩

theorem alike_load {e₁ e₂ : Emulator} (h : Alike e₁ e₂) (program : List UInt8)
    (speed : Option SpeedRequest) :
    (e₁.load program speed).1 = (e₂.load program speed).1 ∧
      Alike (e₁.load program speed).2 (e₂.load program speed).2 := by
  have hclock : e₁.clockFor speed = e₂.clockFor speed := by
    obtain ⟨-, -, -⟩ := h
    cases speed <;> rfl
  have hstrict : e₁.strictLoad = e₂.strictLoad := by
    obtain ⟨-, -, -⟩ := h
    rfl
  rw [load_eq, load_eq, hclock, hstrict]
  split
  · exact ⟨rfl, h⟩
  · split
    · exact ⟨rfl, h.warned program⟩
    · exact ⟨rfl, h.loaded program _⟩

theorem alongside_simulation : Simulation Alongside (fun _ _ _ => True) Blind where
  stop := by
    rintro _ _ ⟨⟨⟨i, hi⟩, -, -⟩, -⟩
    rfl
  clock := by
    rintro _ _ ⟨⟨-, -, -⟩, -⟩
    rfl
  listeners := by
    rintro _ _ ⟨⟨-, -, -⟩, -⟩
    rfl
  allListeners h := h.blind
  silent := by
    rintro e₁ e₂ ⟨h, hblind⟩ -
    obtain ⟨hanswer, halike⟩ := alike_silent h
    exact agree_of_answers hanswer ⟨halike, by rwa [listeners_silent]⟩
  latch := by
    rintro e₁ e₂ f ⟨h, hblind⟩ -
    exact ⟨⟨h.latch f, hblind⟩, trivial⟩
  countDown := by
    rintro e₁ _ ticks ⟨⟨⟨i, hi⟩, htrace, hlog⟩, hblind⟩
    exact ⟨rfl, ⟨.mk i hi, htrace, hlog⟩, hblind⟩
  retime := by
    rintro e₁ _ clock ⟨⟨hmachine, htrace, hlog⟩, hblind⟩
    exact ⟨⟨hmachine, htrace, hlog⟩, hblind⟩
  load := by
    rintro e₁ e₂ program speed ⟨h, hblind⟩
    obtain ⟨hanswer, halike⟩ := alike_load h program speed
    exact agree_of_answers hanswer ⟨halike, by rwa [listeners_load]⟩
  reset := by
    rintro e₁ _ ⟨⟨⟨i, hi⟩, -, hlog⟩, hblind⟩
    exact ⟨⟨.refl _, rfl, hlog⟩, hblind⟩
  keys := by
    rintro e₁ _ value f ⟨⟨⟨i, hi⟩, htrace, hlog⟩, hblind⟩
    exact agree_of_answers rfl ⟨⟨.mk i hi, htrace, hlog⟩, hblind⟩
  listen := by
    rintro e₁ _ event l hl ⟨⟨hmachine, htrace, hlog⟩, hblind⟩
    exact ⟨⟨hmachine, htrace, hlog⟩, hblind.add event hl⟩
  unlisten := by
    rintro e₁ _ event name ⟨⟨hmachine, htrace, hlog⟩, hblind⟩
    exact ⟨⟨hmachine, htrace, hlog⟩, hblind.remove event name⟩
  recording _ _ := blind_of_action nofun
  noted := by
    rintro e₁ e₂ l - ⟨h, hblind⟩
    exact ⟨h.noted l, hblind⟩
  script := by
    rintro e₁ _ l hl ⟨⟨hmachine, -, -⟩, -⟩
    rw [script, script, ← hl.same e₁.notices e₁.machine _ hmachine]
    exact (hl.unseeing e₁.notices e₁.machine).matched

/-- The same calls get the same answers and raise the same errors, and leave the emulators, what
their listeners noted included, as alike as they were. -/
theorem alike_of_calls {e₁ e₂ : Emulator} (h : Alike e₁ e₂)
    (hlisteners : AllListeners Blind e₁.listeners) {calls : List HostCall}
    (hcalls : ∀ c ∈ calls, Brings Blind c) :
    (e₁.performAll calls).1 = (e₂.performAll calls).1 ∧
      Alike (e₁.performAll calls).2 (e₂.performAll calls).2 := by
  obtain ⟨hanswers, hstates⟩ := agree_performAll alongside_simulation hcalls ⟨h, hlisteners⟩
  exact ⟨hanswers, hstates.alike⟩

theorem alike_across_wrap : ∃ e,
    Emulator.new { tracing := true } (.ofList [7]) = .ok e ∧
      let loaded := (e.performAll
        [.listen .displayUpdated { name := "screen", event := .displayUpdated },
          .load [0x60, 0x05, 0xF0, 0x55, 0xF0, 0x1E, 0xF0, 0x55, 0xD0, 0x01, 0x12, 0x0A] none]).2
      let first := { loaded with machine := reindexed loaded.machine 0xFFFE }
      let second := { loaded with machine := reindexed loaded.machine 0x2FFE }
      let calls : List HostCall :=
        [.step, .run 2, .keyDown (.int 3), .tick .zero, .tick (.ofDecimal false 5 (-1))]
      Alike first second ∧ AllListeners Blind first.listeners ∧ (∀ c ∈ calls, Brings Blind c) ∧
        (first.performAll calls).2.machine.registers.i = 0x0003 ∧
        (second.performAll calls).2.machine.registers.i = 0x3003 ∧
        (first.performAll calls).1 = (second.performAll calls).1 ∧
        Alike (first.performAll calls).2 (second.performAll calls).2 := by
  refine ⟨_, rfl, ?_⟩
  intro loaded first second calls
  have halike : Alike first second := ⟨.mk 0x2FFE (by decide), rfl, rfl⟩
  have hlisteners : AllListeners Blind first.listeners :=
    AllListeners.empty.add .displayUpdated (blind_of_action nofun)
  have hcalls : ∀ c ∈ calls, Brings Blind c := by
    simp only [calls, List.forall_mem_cons]
    exact ⟨trivial, trivial, trivial, trivial, trivial, nofun⟩
  exact ⟨halike, hlisteners, hcalls, by decide +kernel, by decide +kernel,
    alike_of_calls halike hlisteners hcalls⟩

end Chip8.Proofs.IndexAlias
