import Chip8.Proofs.Loading

namespace Chip8.Proofs.Journals

open Chip8.Emulator
open Chip8.Proofs.Loading
open Chip8.Proofs.Stepping
open Chip8.Proofs.TwoRuns

structure Journal where
  notices : Array Notice
  log : Array Record

def journal (e : Emulator) : Journal :=
  ⟨e.notices, e.log⟩

/-- The emulator with a journal in front of its own. -/
def after (j : Journal) (e : Emulator) : Emulator :=
  { e with notices := j.notices ++ e.notices, log := j.log ++ e.log }

def blank (e : Emulator) : Emulator :=
  { e with notices := #[], log := #[] }

theorem after_blank (e : Emulator) : after (journal e) (blank e) = e := by
  simp only [after, journal, blank, Array.append_empty]

def behind {α : Type} (j : Journal) (r : Reply α) : Reply α :=
  (r.1, after j r.2)

section

variable (j : Journal) (e : Emulator)

theorem note_after (level : Level) (message : String) :
    (after j e).note level message = after j (e.note level message) := by
  simp only [note, after, Array.push_append]

theorem latch_after (f : Fault) : (after j e).latch f = after j (e.latch f) :=
  note_after j { e with machine := { e.machine with stop := some (.faulted f) } } _ _

theorem traced_after (op : Opcode) (word : Nat) :
    (after j e).traced op word = after j (e.traced op word) := by
  rw [traced, traced]
  split
  · rename_i htracing
    rw [if_pos (by exact htracing)]
    exact note_after j { e with trace := e.trace.push (e.traceLine op word) } _ _
  · rename_i hquiet
    rw [if_neg (by exact hquiet)]

theorem foldl_remarks (log log' : Array Record) (remarks : List Remark) :
    remarks.foldl (fun log r => log.push r.toRecord) (log ++ log') =
      log ++ remarks.foldl (fun log r => log.push r.toRecord) log' := by
  induction remarks generalizing log' with
  | nil => rfl
  | cons r rest ih => rw [List.foldl_cons, List.foldl_cons, Array.push_append, ih]

theorem commit_after (x : Execution) : (after j e).commit x = after j (e.commit x) := by
  simp only [commit, after, foldl_remarks]

theorem silent_after : silent (after j e) = behind j (silent e) := by
  have hword : (after j e).nextWord = e.nextWord := rfl
  have hmachine : (after j e).machine = e.machine := rfl
  simp only [silent, hword, hmachine, traced_after, commit_after, latch_after]
  cases Opcode.lookup e.nextWord with
  | none => rfl
  | some op =>
      dsimp only
      split <;> rfl

theorem noted_after (l : Listener) : noted (after j e) l = after j (noted e l) := by
  simp only [noted, after, Array.push_append]

theorem warned_after (program : List UInt8) :
    warned (after j e) program = after j (warned e program) := by
  rw [warned, warned]
  split
  · exact note_after j e _ _
  · rfl

theorem loaded_after (program : List UInt8) (clock : Clock) :
    loaded (after j e) program clock = after j (loaded e program clock) := by
  rw [loaded, loaded, warned_after, ← note_after]
  rfl

theorem load_after (program : List UInt8) (speed : Option SpeedRequest) :
    (after j e).load program speed = behind j (e.load program speed) := by
  have hclock : (after j e).clockFor speed = e.clockFor speed := by cases speed <;> rfl
  have hstrict : (after j e).strictLoad = e.strictLoad := rfl
  rw [load_eq, load_eq, hclock, hstrict, warned_after]
  split
  · rfl
  · cases e.clockFor speed with
    | error err => rfl
    | ok clock =>
        dsimp only
        rw [loaded_after]
        rfl

theorem onKeypad_after (call : Keypad → Except Error Unit × Keypad) :
    (after j e).onKeypad call = behind j (e.onKeypad call) :=
  rfl

end

/-- A listener that goes on alike whether the one or the other was noted before. -/
def Indifferent (past past' : Array Notice) (l : Listener) : Prop :=
  ∀ later m,
    l.action.toScript l.event (past ++ later) m = l.action.toScript l.event (past' ++ later) m

theorem indifferent_of_action {past past' : Array Notice} {l : Listener}
    (h : ∀ behave, l.action ≠ .script behave) : Indifferent past past' l := by
  intro later m
  cases haction : l.action with
  | script behave => exact absurd haction (h behave)
  | _ => rfl

/-- Emulators that differ only in the journals in front of their own. -/
inductive Apart (j j' : Journal) : Emulator → Emulator → Prop
  | mk (base : Emulator) (h : AllListeners (Indifferent j.notices j'.notices) base.listeners) :
      Apart j j' (after j base) (after j' base)

section

variable {j j' : Journal}

theorem agree_behind {α : Type} {r : Reply α}
    (h : AllListeners (Indifferent j.notices j'.notices) r.2.listeners) :
    Agree (Apart j j') (fun _ _ _ => True) (behind j r) (behind j' r) :=
  agree_of_answers rfl ⟨r.2, h⟩

theorem apart_simulation :
    Simulation (Apart j j') (fun _ _ _ => True) (Indifferent j.notices j'.notices) where
  stop := by
    rintro _ _ ⟨base, h⟩
    rfl
  clock := by
    rintro _ _ ⟨base, h⟩
    rfl
  listeners := by
    rintro _ _ ⟨base, h⟩
    rfl
  allListeners := by
    rintro _ _ ⟨base, h⟩
    exact h
  silent := by
    rintro _ _ ⟨base, h⟩ -
    rw [silent_after, silent_after]
    exact agree_behind (by rwa [listeners_silent])
  latch := by
    rintro _ _ f ⟨base, h⟩ -
    rw [latch_after, latch_after]
    exact ⟨⟨_, h⟩, trivial⟩
  countDown := by
    rintro _ _ ticks ⟨base, h⟩
    exact ⟨rfl, countDown base ticks, h⟩
  retime := by
    rintro _ _ clock ⟨base, h⟩
    exact ⟨{ base with clock }, h⟩
  load := by
    rintro _ _ program speed ⟨base, h⟩
    rw [load_after, load_after]
    exact agree_behind (by rwa [listeners_load])
  reset := by
    rintro _ _ ⟨base, h⟩
    exact ⟨base.reset, h⟩
  keys := by
    rintro _ _ value f ⟨base, h⟩
    rw [onKeypad_after, onKeypad_after]
    exact agree_behind h
  listen := by
    rintro _ _ event l hl ⟨base, h⟩
    exact ⟨base.addListener event l, h.add event hl⟩
  unlisten := by
    rintro _ _ event name ⟨base, h⟩
    exact ⟨base.removeListener event name, h.remove event name⟩
  recording _ _ _ _ := rfl
  noted := by
    rintro _ _ l - ⟨base, h⟩
    rw [noted_after, noted_after]
    exact ⟨noted base l, h⟩
  script := by
    rintro _ _ l hl ⟨base, h⟩
    have hsame : script (after j base) l = script (after j' base) l := hl base.notices base.machine
    rw [hsame]
    refine (raisesOnly_any _).matched (fun _ _ _ _ _ => trivial) ?_
    rintro _ _ ⟨base, -⟩
    rfl

end

theorem apart_of_blank {e e' : Emulator} (h : blank e = blank e')
    (hlisteners : AllListeners (Indifferent e.notices e'.notices) e.listeners) :
    Apart (journal e) (journal e') e e' := by
  have hstart := @Apart.mk (journal e) (journal e') (blank e) hlisteners
  rwa [after_blank, h, after_blank] at hstart

/-- Whatever calls follow, the answers are the same, and so is all that is new in the journals. -/
theorem performAll_alike {e e' : Emulator} (h : blank e = blank e')
    (hlisteners : AllListeners (Indifferent e.notices e'.notices) e.listeners)
    {calls : List HostCall}
    (hcalls : ∀ c ∈ calls, Brings (Indifferent e.notices e'.notices) c) :
    (e.performAll calls).1 = (e'.performAll calls).1 ∧
      ∃ base, (e.performAll calls).2 = after (journal e) base ∧
        (e'.performAll calls).2 = after (journal e') base := by
  obtain ⟨hanswers, hstates⟩ :=
    agree_performAll apart_simulation hcalls (apart_of_blank h hlisteners)
  generalize (e.performAll calls).2 = e₁, (e'.performAll calls).2 = e₂ at hstates ⊢
  obtain ⟨base, -⟩ := hstates
  exact ⟨hanswers, base, rfl, rfl⟩

end Chip8.Proofs.Journals
