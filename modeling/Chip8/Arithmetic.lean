namespace Chip8

/-- The low eight bits of an integer in two's complement. -/
def toByte (n : Int) : UInt8 :=
  UInt8.ofNat (n % 256).toNat

theorem toNat_toByte (n : Int) : (toByte n).toNat = (n % 256).toNat := by
  simp only [toByte, UInt8.toNat_ofNat']
  omega

@[simp]
theorem toByte_toNat (b : UInt8) : toByte b.toNat = b := by
  have hlt := b.toNat_lt
  rw [← UInt8.toNat_inj, toNat_toByte]
  omega

def IsByte (n : Int) : Prop :=
  0 ≤ n ∧ n < 256

instance (n : Int) : Decidable (IsByte n) :=
  inferInstanceAs (Decidable (_ ∧ _))

@[simp]
theorem isByte_toNat (b : UInt8) : IsByte b.toNat := by
  have := b.toNat_lt
  simp only [IsByte]
  omega

@[simp]
theorem isByte_emod (n : Int) : IsByte (n % 256) := by
  simp only [IsByte]
  omega

@[simp]
theorem isByte_ite (p : Prop) [Decidable p] : IsByte (if p then 1 else 0) := by
  split <;> decide

namespace Arithmetic

def add (a b : Int) : Int × Int :=
  ((a + b) % 256, if a + b > 255 then 1 else 0)

def sub (a b : Int) : Int :=
  (a - b) % 256

/-- The flag of a subtraction: 1 if the minuend is strictly greater than the subtrahend. -/
def noBorrow (a b : Int) : Int :=
  if a > b then 1 else 0

def shiftRight (value : Int) : Int :=
  value / 2 % 256

def shiftLeft (value : Int) : Int :=
  value * 2 % 256

def lowBit (value : Int) : Int :=
  value % 2

/-- Hundreds, tens and units of a value. The hundreds take all that is left over. -/
def decimal (value : Int) : Int × Int × Int :=
  (value / 100, value % 100 / 10, value % 10)

end Arithmetic

end Chip8
