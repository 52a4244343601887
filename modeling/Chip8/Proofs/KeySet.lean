import Mathlib.Data.List.Induction
import Mathlib.Order.Bounds.Basic
import Chip8.Proofs.HeldKeys

namespace Chip8.Proofs.KeySet

open Chip8.Emulator
open Chip8.Proofs.HeldKeys

/-- The integers from 0 to 15 name keys. Truth values and reals do not, whatever they equal. -/
def IsKey : HostValue → Prop
  | .int n => 0 ≤ n ∧ n ≤ 15
  | _ => False

instance : DecidablePred IsKey
  | .int n => inferInstanceAs (Decidable (0 ≤ n ∧ n ≤ 15))
  | .null | .bool _ | .real _ | .text _ | .list _ | .record _ => .isFalse id

/-- A call that changes keys, with any value in the place of a key. -/
inductive KeyCall
  | press (value : HostValue)
  | release (value : HostValue)
  | reset

namespace KeyCall

def perform (k : Keypad) : KeyCall → Except Error Unit × Keypad
  | press value => k.keyDown value
  | release value => k.keyUp value
  | reset => (.ok (), {})

/-- The call of an emulator's host that makes this call of its keypad. -/
def call : KeyCall → HostCall
  | press value => .keyDown value
  | release value => .keyUp value
  | reset => .reset

def answer : KeyCall → Except Error Unit
  | press value | release value => if IsKey value then .ok () else .error (.invalidKey value)
  | reset => .ok ()

end KeyCall

def performAll (k : Keypad) : List KeyCall → List (Except Error Unit) × Keypad
  | [] => ([], k)
  | c :: rest =>
    let (answer, k) := c.perform k
    let (answers, k) := performAll k rest
    (answer :: answers, k)

/-- Some call presses the key, and no later one releases it or resets all keys. -/
def Pressed (calls : List KeyCall) (key : Fin 16) : Prop :=
  ∃ earlier later, calls = earlier ++ .press (.int key.val) :: later ∧
    .release (.int key.val) ∉ later ∧ .reset ∉ later

/-- The three ways to look at a keypad show the same keys. -/
structure Shows (k : Keypad) (keys : Set (Fin 16)) : Prop where
  ordered : k.pressed.Pairwise (· < ·)
  listed : ∀ key, key ∈ k.pressed ↔ key ∈ keys
  queried : ∀ key : Fin 16, ∃ down, k.query (.int key.val) = .ok down ∧ (down = true ↔ key ∈ keys)
  unqueried : ∀ value, ¬ IsKey value → k.query value = .error (.invalidKey value)
  first : ∀ key, k.first? = some key ↔ IsLeast keys key
  empty : k.first? = none ↔ keys = ∅

/-- What calls do to a new keypad, and to the keypad of an emulator. -/
structure RefinesSet (calls : List KeyCall) : Prop where
  answers : (performAll {} calls).1 = calls.map KeyCall.answer
  refused : ∀ k, ∀ c ∈ calls, c.answer ≠ .ok () → (c.perform k).2 = k
  shown : Shows (performAll {} calls).2 {key | Pressed calls key}
  hosted : ∀ e : Emulator, e.machine.keypad = {} →
    (e.performAll (calls.map KeyCall.call)).1 =
        calls.map (fun c => c.answer.map fun _ => .nothing) ∧
      (e.performAll (calls.map KeyCall.call)).2.machine.keypad = (performAll {} calls).2

theorem isKey_val (key : Fin 16) : IsKey (.int key.val) := by
  simp only [IsKey]
  omega

theorem toKey_of_not_isKey {value : HostValue} (h : ¬ IsKey value) :
    value.toKey = .error (.invalidKey value) := by
  cases value with
  | int n =>
      simp only [IsKey] at h
      rw [HostValue.toKey, dif_neg (by omega)]
  | _ => rfl

theorem exists_of_isKey {value : HostValue} (h : IsKey value) :
    ∃ key : Fin 16, value = .int key.val := by
  cases value with
  | int n =>
      obtain ⟨hnonneg, hle⟩ := h
      refine ⟨⟨n.toNat, by omega⟩, ?_⟩
      rw [Int.toNat_of_nonneg hnonneg]
  | _ => exact h.elim

theorem key_cases (value : HostValue) : (∃ key : Fin 16, value = .int key.val) ∨ ¬ IsKey value :=
  (Decidable.em (IsKey value)).imp_left exists_of_isKey

theorem int_val_inj {key other : Fin 16} :
    HostValue.int key.val = .int other.val ↔ key = other := by
  rw [HostValue.int.injEq, Int.natCast_inj, Fin.val_inj]

theorem change_of_not_isKey (k : Keypad) {value : HostValue} (h : ¬ IsKey value)
    (f : Keypad → Fin 16 → Keypad) : k.change value f = (.error (.invalidKey value), k) := by
  rw [Keypad.change, toKey_of_not_isKey h]

theorem perform_press (k : Keypad) (key : Fin 16) :
    (KeyCall.press (.int key.val)).perform k = (.ok (), k.press key) := by
  rw [KeyCall.perform, Keypad.keyDown, change_val]

theorem perform_release (k : Keypad) (key : Fin 16) :
    (KeyCall.release (.int key.val)).perform k = (.ok (), k.release key) := by
  rw [KeyCall.perform, Keypad.keyUp, change_val]

theorem perform_of_not_isKey (k : Keypad) {value : HostValue} (h : ¬ IsKey value) :
    (KeyCall.press value).perform k = (.error (.invalidKey value), k) ∧
      (KeyCall.release value).perform k = (.error (.invalidKey value), k) :=
  ⟨change_of_not_isKey k h _, change_of_not_isKey k h _⟩

theorem answer_perform (k : Keypad) (c : KeyCall) : (c.perform k).1 = c.answer := by
  cases c with
  | press value =>
      rcases key_cases value with ⟨key, rfl⟩ | h
      · rw [perform_press, KeyCall.answer, if_pos (isKey_val key)]
      · rw [(perform_of_not_isKey k h).1, KeyCall.answer, if_neg h]
  | release value =>
      rcases key_cases value with ⟨key, rfl⟩ | h
      · rw [perform_release, KeyCall.answer, if_pos (isKey_val key)]
      · rw [(perform_of_not_isKey k h).2, KeyCall.answer, if_neg h]
  | reset => rfl

theorem perform_of_refused (k : Keypad) {c : KeyCall} (h : c.answer ≠ .ok ()) :
    (c.perform k).2 = k := by
  cases c with
  | press value =>
      have hvalue : ¬ IsKey value := fun hkey => h (if_pos hkey)
      rw [(perform_of_not_isKey k hvalue).1]
  | release value =>
      have hvalue : ¬ IsKey value := fun hkey => h (if_pos hkey)
      rw [(perform_of_not_isKey k hvalue).2]
  | reset => exact absurd rfl h

theorem isDown_new (key : Fin 16) : ({} : Keypad).isDown key = false := by
  simp [Keypad.isDown, Vector.get]

theorem isDown_perform (k : Keypad) (c : KeyCall) (key : Fin 16) :
    (c.perform k).2.isDown key = true ↔ c = .press (.int key.val) ∨
      (k.isDown key = true ∧ c ≠ .release (.int key.val) ∧ c ≠ .reset) := by
  cases c with
  | press value =>
      rcases key_cases value with ⟨other, rfl⟩ | h
      · rw [perform_press, isDown_press, KeyCall.press.injEq, int_val_inj]
        simp
      · have hother : value ≠ .int key.val := fun heq => h (heq ▸ isKey_val key)
        rw [(perform_of_not_isKey k h).1]
        simp [hother]
  | release value =>
      rcases key_cases value with ⟨other, rfl⟩ | h
      · rw [perform_release, isDown_release, ne_eq, ne_eq, KeyCall.release.injEq, int_val_inj]
        simp [and_comm]
      · have hother : value ≠ .int key.val := fun heq => h (heq ▸ isKey_val key)
        rw [(perform_of_not_isKey k h).2]
        simp [hother]
  | reset => simp [KeyCall.perform, isDown_new]

theorem performAll_cons (k : Keypad) (c : KeyCall) (rest : List KeyCall) :
    performAll k (c :: rest) =
      ((c.perform k).1 :: (performAll (c.perform k).2 rest).1,
        (performAll (c.perform k).2 rest).2) :=
  rfl

theorem performAll_concat (k : Keypad) (calls : List KeyCall) (c : KeyCall) :
    (performAll k (calls ++ [c])).2 = (c.perform (performAll k calls).2).2 := by
  induction calls generalizing k with
  | nil => rfl
  | cons first rest ih => rw [List.cons_append, performAll_cons, ih, performAll_cons]

theorem pressed_concat (calls : List KeyCall) (c : KeyCall) (key : Fin 16) :
    Pressed (calls ++ [c]) key ↔ c = .press (.int key.val) ∨
      (Pressed calls key ∧ c ≠ .release (.int key.val) ∧ c ≠ .reset) := by
  constructor
  · rintro ⟨earlier, later, hsplit, hrelease, hreset⟩
    induction later using List.reverseRecOn with
    | nil =>
        obtain ⟨-, hlast⟩ := List.append_inj' hsplit rfl
        exact .inl (List.head_eq_of_cons_eq hlast)
    | append_singleton later last _ =>
        rw [← List.cons_append, ← List.append_assoc] at hsplit
        obtain ⟨rfl, hlast⟩ := List.append_inj' hsplit rfl
        obtain rfl := List.head_eq_of_cons_eq hlast
        simp only [List.mem_append, List.mem_singleton, not_or] at hrelease hreset
        exact .inr ⟨⟨earlier, later, rfl, hrelease.1, hreset.1⟩, Ne.symm hrelease.2,
          Ne.symm hreset.2⟩
  · rintro (rfl | ⟨⟨earlier, later, rfl, hrelease, hreset⟩, hkeeps, hstays⟩)
    · exact ⟨calls, [], rfl, List.not_mem_nil, List.not_mem_nil⟩
    · refine ⟨earlier, later ++ [c], by simp, ?_, ?_⟩
      · simp [hrelease, Ne.symm hkeeps]
      · simp [hreset, Ne.symm hstays]

theorem isDown_performAll (calls : List KeyCall) (key : Fin 16) :
    (performAll {} calls).2.isDown key = true ↔ Pressed calls key := by
  -- By induction on the calls from the last one on, which decides about the keys it names.
  induction calls using List.reverseRecOn with
  | nil =>
      rw [performAll, isDown_new]
      simp [Pressed]
  | append_singleton calls c ih =>
      rw [performAll_concat, isDown_perform, ih, pressed_concat]

theorem answers_performAll (k : Keypad) (calls : List KeyCall) :
    (performAll k calls).1 = calls.map KeyCall.answer := by
  induction calls generalizing k with
  | nil => rfl
  | cons c rest ih =>
      rw [performAll_cons, List.map_cons, answer_perform, ih]

theorem mem_pressed (k : Keypad) (key : Fin 16) : key ∈ k.pressed ↔ k.isDown key = true := by
  rw [Keypad.pressed, List.mem_filter]
  simp

theorem first?_eq_some_iff (k : Keypad) (key : Fin 16) :
    k.first? = some key ↔ IsLeast {key | k.isDown key = true} key := by
  constructor
  · exact isLeast_of_first?
  · intro hleast
    obtain ⟨other, hother⟩ := Option.ne_none_iff_exists'.mp (first?_ne_none hleast.1)
    rw [hother, hleast.unique (isLeast_of_first? hother)]

theorem shows_isDown (k : Keypad) : Shows k {key | k.isDown key = true} where
  ordered := (List.sortedLT_finRange 16).pairwise.filter _
  listed := mem_pressed k
  queried key := by
    refine ⟨k.isDown key, ?_, Iff.rfl⟩
    rw [Keypad.query, toKey_val]
  unqueried value h := by rw [Keypad.query, toKey_of_not_isKey h]
  first := first?_eq_some_iff k
  empty := by
    rw [Keypad.first?, List.find?_eq_none, Set.eq_empty_iff_forall_notMem]
    simp

theorem perform_call (e : Emulator) (c : KeyCall) :
    (e.perform c.call).1 = (c.perform e.machine.keypad).1.map (fun _ => .nothing) ∧
      (e.perform c.call).2.machine.keypad = (c.perform e.machine.keypad).2 := by
  cases c with
  | press value | release value | reset => exact ⟨rfl, rfl⟩

theorem performAll_calls (e : Emulator) (calls : List KeyCall) :
    (e.performAll (calls.map KeyCall.call)).1 =
        calls.map (fun c => c.answer.map fun _ => .nothing) ∧
      (e.performAll (calls.map KeyCall.call)).2.machine.keypad =
        (performAll e.machine.keypad calls).2 := by
  induction calls generalizing e with
  | nil => exact ⟨rfl, rfl⟩
  | cons c rest ih =>
      obtain ⟨hanswer, hkeypad⟩ := perform_call e c
      obtain ⟨hanswers, hkeys⟩ := ih (e.perform c.call).2
      rw [hkeypad] at hkeys
      rw [answer_perform] at hanswer
      rw [List.map_cons, List.map_cons, Emulator.performAll, performAll_cons, ← hanswer, ← hanswers]
      exact ⟨rfl, hkeys⟩

/-- The keypad is a set of keys under every sequence of calls. -/
theorem keypad_refines_set (calls : List KeyCall) : RefinesSet calls where
  answers := answers_performAll {} calls
  refused k _ _ h := perform_of_refused k h
  shown := by
    have hkeys : {key | (performAll {} calls).2.isDown key = true} = {key | Pressed calls key} :=
      Set.ext (isDown_performAll calls)
    rw [← hkeys]
    exact shows_isDown _
  hosted e hnew := by
    have hcalls := performAll_calls e calls
    rwa [hnew] at hcalls

example : (performAll {} [.press (.int 12), .press (.bool true), .press (.int 3),
    .release (.int 12)]).2.pressed = [3] := by decide

end Chip8.Proofs.KeySet
