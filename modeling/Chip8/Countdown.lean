import Chip8.Arithmetic

namespace Chip8

structure Countdown where
  value : UInt8 := 0
  deriving DecidableEq, Repr

namespace Countdown

def active (c : Countdown) : Bool :=
  0 < c.value

def set (value : Int) : Countdown :=
  ⟨toByte value⟩

/-- Counts down by some ticks, to zero at most; negative ticks count as none. The answer tells
whether this took the timer from a positive value to zero. -/
def decay (c : Countdown) (ticks : Int) : Bool × Countdown :=
  let left := c.value.toNat - ticks.toNat
  (0 < c.value && left = 0, ⟨UInt8.ofNat left⟩)

theorem value_decay (c : Countdown) (ticks : Int) :
    ((c.decay ticks).2.value.toNat : Int) = max 0 (c.value.toNat - max 0 ticks) := by
  have hvalue := c.value.toNat_lt
  simp only [decay, UInt8.toNat_ofNat']
  omega

theorem decay_ended_iff (c : Countdown) (ticks : Int) :
    (c.decay ticks).1 = true ↔ c.value ≠ 0 ∧ (c.decay ticks).2.value = 0 := by
  have hvalue := c.value.toNat_lt
  have hzero : (0 : UInt8).toNat = 0 := rfl
  simp only [decay, Bool.and_eq_true, decide_eq_true_eq, ne_eq, ← UInt8.toNat_inj,
    UInt8.lt_iff_toNat_lt, UInt8.toNat_ofNat']
  omega

end Countdown

end Chip8
