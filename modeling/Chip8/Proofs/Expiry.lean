import Chip8.Countdown
import Mathlib.Algebra.Ring.Int.Defs
import Mathlib.Order.Bounds.Basic

namespace Chip8.Proofs.Expiry

open Chip8.Countdown

/-- Counts down by ticks one part after the other, and gives the answer to each. -/
def decayAll (c : Countdown) : List Int → List Bool × Countdown
  | [] => ([], c)
  | ticks :: rest =>
    let (ended, c) := c.decay ticks
    let (answers, c) := decayAll c rest
    (ended :: answers, c)

/-- The ticks of all parts. Negative ones count as none. -/
def total (parts : List Int) : Int :=
  (parts.map (max 0)).sum

def left (c : Countdown) (parts : List Int) : Int :=
  (decayAll c parts).2.value.toNat

/-- With the part of number `i` the ticks so far come to `n` or more. -/
def Reaches (parts : List Int) (n : Int) (i : Nat) : Prop :=
  i < parts.length ∧ n ≤ total (parts.take (i + 1))

/-- What counting down in parts gives of a timer that was set to an integer. -/
structure CountsDown (v : Int) (parts : List Int) : Prop where
  value : left (.set v) parts = max 0 (v % 256 - total parts)
  /-- One part of as many ticks leaves the same. -/
  whole : (decayAll (.set v) parts).2 = ((Countdown.set v).decay (total parts)).2
  range : ∀ i, 0 ≤ left (.set v) (parts.take i) ∧ left (.set v) (parts.take i) ≤ 255
  falls : ∀ i j, i ≤ j → left (.set v) (parts.take j) ≤ left (.set v) (parts.take i)
  answered : (decayAll (.set v) parts).1.length = parts.length
  ended : ∀ i, (decayAll (.set v) parts).1[i]? = some true ↔
    0 < v % 256 ∧ IsLeast {j | Reaches parts (v % 256) j} i
  once : (decayAll (.set v) parts).1.count true =
    if 0 < v % 256 ∧ v % 256 ≤ total parts then 1 else 0

theorem total_nil : total [] = 0 :=
  rfl

theorem total_cons (ticks : Int) (rest : List Int) :
    total (ticks :: rest) = max 0 ticks + total rest :=
  rfl

theorem total_append (parts rest : List Int) :
    total (parts ++ rest) = total parts + total rest := by
  rw [total, List.map_append, List.sum_append]
  rfl

theorem total_nonneg (parts : List Int) : 0 ≤ total parts := by
  induction parts with
  | nil => exact le_refl 0
  | cons ticks rest ih =>
      rw [total_cons]
      omega

theorem total_take_mono (parts : List Int) {i j : Nat} (h : i ≤ j) :
    total (parts.take i) ≤ total (parts.take j) := by
  have hmore := total_nonneg ((parts.take j).drop i)
  rw [← List.take_append_drop i (parts.take j), total_append, List.take_take, Nat.min_eq_left h]
  omega

theorem isLeast_reaches_iff (parts : List Int) {n : Int} (hn : 0 < n) (i : Nat) :
    IsLeast {j | Reaches parts n j} i ↔ total (parts.take i) < n ∧ Reaches parts n i := by
  constructor
  · rintro ⟨hreaches, hleast⟩
    refine ⟨?_, hreaches⟩
    cases i with
    | zero => rwa [List.take_zero, total_nil]
    | succ k =>
        have hbefore : ¬ Reaches parts n k := fun h => Nat.not_succ_le_self k (hleast h)
        have hlt := hreaches.1
        simp only [Reaches, not_and] at hbefore
        have := hbefore (by omega)
        omega
  · rintro ⟨hbefore, hreaches⟩
    refine ⟨hreaches, fun j hj => ?_⟩
    by_contra hlt
    have hmono := total_take_mono parts (show j + 1 ≤ i by omega)
    have := hj.2
    omega

theorem decayAll_cons (c : Countdown) (ticks : Int) (rest : List Int) :
    decayAll c (ticks :: rest) = ((c.decay ticks).1 :: (decayAll (c.decay ticks).2 rest).1,
      (decayAll (c.decay ticks).2 rest).2) :=
  rfl

theorem left_nil (c : Countdown) : left c [] = c.value.toNat :=
  rfl

theorem left_cons (c : Countdown) (ticks : Int) (rest : List Int) :
    left c (ticks :: rest) = left (c.decay ticks).2 rest :=
  rfl

theorem left_eq (c : Countdown) (parts : List Int) :
    left c parts = max 0 (c.value.toNat - total parts) := by
  induction parts generalizing c with
  | nil =>
      rw [left_nil, total_nil]
      omega
  | cons ticks rest ih =>
      have hrest := total_nonneg rest
      rw [left_cons, total_cons, ih, value_decay]
      omega

theorem length_answers (c : Countdown) (parts : List Int) :
    (decayAll c parts).1.length = parts.length := by
  induction parts generalizing c with
  | nil => rfl
  | cons ticks rest ih => rw [decayAll_cons, List.length_cons, List.length_cons, ih]

theorem decay_ended (c : Countdown) (ticks : Int) :
    (c.decay ticks).1 = true ↔ 0 < (c.value.toNat : Int) ∧ (c.value.toNat : Int) ≤ max 0 ticks := by
  have hvalue := value_decay c ticks
  have hzero : (0 : UInt8).toNat = 0 := rfl
  rw [decay_ended_iff, ne_eq, ← UInt8.toNat_inj, ← UInt8.toNat_inj, hzero]
  omega

theorem answer_eq_true_iff (c : Countdown) (parts : List Int) (i : Nat) :
    (decayAll c parts).1[i]? = some true ↔
      total (parts.take i) < c.value.toNat ∧ Reaches parts c.value.toNat i := by
  -- By induction on the parts: what is left before a part is what it finds.
  induction parts generalizing c i with
  | nil => simp [decayAll, Reaches]
  | cons ticks rest ih =>
      have hvalue := value_decay c ticks
      rw [decayAll_cons]
      cases i with
      | zero =>
          rw [List.getElem?_cons_zero, Option.some.injEq, decay_ended]
          simp [Reaches, total_cons, total_nil]
      | succ k =>
          have hbefore := total_nonneg (rest.take k)
          have hmono := total_take_mono rest (Nat.le_succ k)
          rw [List.getElem?_cons_succ, ih, Reaches, Reaches, List.take_succ_cons,
            List.take_succ_cons, total_cons, total_cons, List.length_cons, hvalue]
          omega

theorem count_answers (c : Countdown) (parts : List Int) :
    (decayAll c parts).1.count true =
      if 0 < (c.value.toNat : Int) ∧ (c.value.toNat : Int) ≤ total parts then 1 else 0 := by
  induction parts generalizing c with
  | nil =>
      rw [decayAll, total_nil, List.count_nil, if_neg (by omega)]
  | cons ticks rest ih =>
      have hrest := total_nonneg rest
      have hvalue := value_decay c ticks
      have hended := decay_ended c ticks
      rw [decayAll_cons, List.count_cons, ih, total_cons, hvalue]
      -- Once the timer has ended, nothing is left that a later part could end.
      cases hanswer : (c.decay ticks).1 with
      | true =>
          obtain ⟨hpositive, hreached⟩ := hended.mp hanswer
          rw [if_neg (by omega), if_pos (beq_self_eq_true true), if_pos (by omega)]
      | false =>
          have hstays : ¬ (0 < (c.value.toNat : Int) ∧ (c.value.toNat : Int) ≤ max 0 ticks) := by
            rw [← hended, hanswer]
            decide
          rw [if_neg (show ¬ (false == true) = true by decide), Nat.add_zero]
          exact if_congr (by omega) rfl rfl

theorem value_set (v : Int) : ((Countdown.set v).value.toNat : Int) = v % 256 := by
  rw [Countdown.set, toNat_toByte]
  omega

/-- A timer set to any integer and counted down by any parts loses their sum and ends once. -/
theorem countsDown_set (v : Int) (parts : List Int) : CountsDown v parts where
  value := by rw [left_eq, value_set]
  whole := by
    have hparts := left_eq (.set v) parts
    have hwhole := value_decay (.set v) (total parts)
    rw [max_eq_right (total_nonneg parts), ← hparts, left, Int.natCast_inj] at hwhole
    rw [Countdown.mk.injEq, ← UInt8.toNat_inj, hwhole]
  range i := by
    have hbyte := (decayAll (.set v) (parts.take i)).2.value.toNat_lt
    rw [left]
    omega
  falls i j h := by
    have hmono := total_take_mono parts h
    rw [left_eq, left_eq]
    omega
  answered := length_answers (.set v) parts
  ended i := by
    rw [answer_eq_true_iff, value_set]
    constructor
    · rintro ⟨hbefore, hreaches⟩
      have hpositive : 0 < v % 256 := lt_of_le_of_lt (total_nonneg (parts.take i)) hbefore
      exact ⟨hpositive, (isLeast_reaches_iff parts hpositive i).mpr ⟨hbefore, hreaches⟩⟩
    · rintro ⟨hpositive, hleast⟩
      exact (isLeast_reaches_iff parts hpositive i).mp hleast
  once := by rw [count_answers, value_set]

example : decayAll (.set 258) [1, -7, 5, 3] = ([false, false, true, false], { value := 0 }) := by
  decide

end Chip8.Proofs.Expiry
